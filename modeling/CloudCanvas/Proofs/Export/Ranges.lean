import CloudCanvas.Proofs.Export.Subnets
import CloudCanvas.Proofs.Network.Range

/-!
# The ranges of subnets

A subnet without an address prefix of its own has the range that its place among the subnets
of its network says, whatever the other subnets have.  Such ranges lie in the address space of
the network and do not overlap each other.  The range of a subnet with a prefix of its own is
what the prefix says, and nothing keeps it apart from the others: it overlaps the range of a
subnet without one if the two agree in their first bits.

## Main definitions

* `Resource.rangeAt?`: the range of the subnet at a place.
* `Resource.KeepsDefaultsFree`: no other range overlaps that of a subnet without a prefix.
* `Resource.CarvesByPlace`: the range of a subnet without a prefix, and what overlaps it.

The main statement is `Topology.carvesByPlace_of_build`.
-/

namespace CloudCanvas

/-- The range of the subnet that a resource lists at a place, if it is one. -/
def Resource.rangeAt? (r : Resource) (place : ℕ) : Option AddressSpace := do
  let entry ← r.subnets[place]?
  let range ← entry.textAt? ["properties", "addressPrefix"]
  AddressSpace.parse? range

/-- The text that says which address space a network has. -/
def Group.spaceText (network : Group) : String :=
  ((Element.group network).text? "addressPrefix").getD "10.0.0.0/16"

/-- The ranges of the subnets without a prefix of their own are free: each is one of 256
addresses, and it overlaps no range of another subnet. -/
def Resource.KeepsDefaultsFree (r : Resource) (subnets : List Group) : Prop :=
  ∀ (i : ℕ) (subnet : Group), subnets[i]? = some subnet →
    subnet.properties.get? "addressPrefix" = none →
      ∃ range, r.rangeAt? i = some range ∧ range.length = 24 ∧
        ∀ j ≠ i, ∀ other, r.rangeAt? j = some other → other.length ≤ 32 → ¬ range.Overlaps other

/-- The range of the subnet at a place that has no prefix of its own: it is the one with the
number of this place in a space, and lies in this space.  It overlaps no range that comes about
in the same way, and a range that another subnet says itself if the two agree in as many bits
as the shorter length says. -/
structure Resource.CarvesByPlace (r : Resource) (space : AddressSpace) (subnets : List Group)
    (place : ℕ) : Prop where
  range_eq : r.rangeAt? place = some (space.block place)
  inside : ∀ address, (space.block place).Contains address → space.Contains address
  free : ∀ j ≠ place, ∀ sibling, subnets[j]? = some sibling →
    sibling.properties.get? "addressPrefix" = none →
      ∃ other, r.rangeAt? j = some other ∧ ¬ (space.block place).Overlaps other
  overlaps_iff : ∀ j ≠ place, ∀ sibling text other, subnets[j]? = some sibling →
    sibling.properties.get? "addressPrefix" = some (.string text) →
      AddressSpace.parse? text = some other → other.length ≤ 32 → r.rangeAt? j = some other ∧
        ((space.block place).Overlaps other ↔
          (space.block place).leading (min 24 other.length) =
            other.leading (min 24 other.length))

/-- In each network of a drawing the ranges of the subnets without a prefix are free. -/
def Build.KeepsDefaultsFree (b : Build) (t : Topology) : Prop :=
  ∀ network ∈ t.groups, network.kind = ResourceKind.virtualNetwork.tag →
    ∃ r ∈ b.template.resources, r.element = network.id ∧ r.KeepsDefaultsFree (t.subnetsIn network)

/-- In each network of a drawing the ranges of the subnets without a prefix are those that
their places have in the address space of the network. -/
def Build.CarvesByPlace (b : Build) (t : Topology) : Prop :=
  ∀ network ∈ t.groups, network.kind = ResourceKind.virtualNetwork.tag →
    ∃ r ∈ b.template.resources, r.element = network.id ∧ ∀ (i : ℕ) (subnet : Group),
      (t.subnetsIn network)[i]? = some subnet →
        subnet.properties.get? "addressPrefix" = none →
          ∃ space, AddressSpace.parse? network.spaceText = some space ∧
            r.CarvesByPlace space (t.subnetsIn network) i

/-! ## One entry -/

theorem Subnet.textAt?_entry {subnet : Group} {space : String} {ordinal : ℕ} {entry : Value}
    (h : Subnet.entry subnet space ordinal = .ok entry) :
    ∃ range, addressPrefix subnet space ordinal = .ok range ∧
      entry.json.textAt? ["properties", "addressPrefix"] = some range := by
  obtain ⟨range, hRange, eq⟩ := bind_eq_ok_iff.1 h
  cases eq
  refine ⟨range, hRange, ?_⟩
  simp (disch := simp) [Json.textAt?, Value.field?_ofMembers, List.lookup_cons]

/-- A network has one entry for each of its subnets, made with the place of the subnet. -/
theorem VirtualNetwork.exists_entry_of_getElem? {network : Group} {space : String}
    {seen : List String} {ordinal : ℕ} {subnets : List Group} {listed : List Value}
    (h : entries network space seen ordinal subnets = .ok listed) {i : ℕ} {subnet : Group}
    (found : subnets[i]? = some subnet) :
    ∃ entry, listed[i]? = some entry ∧ Subnet.entry subnet space (ordinal + i) = .ok entry := by
  induction subnets generalizing seen ordinal listed i with
  | nil => cases found
  | cons first rest ih =>
      rw [entries] at h
      split at h
      · cases h
      · simp only [bind_eq_ok_iff] at h
        obtain ⟨entry, made, later, others, h⟩ := h
        cases h
        cases i with
        | zero =>
            cases found
            exact ⟨entry, rfl, made⟩
        | succ i =>
            obtain ⟨entry, at', made⟩ := ih others found
            rw [Nat.add_assoc, Nat.add_comm 1] at made
            exact ⟨entry, at', made⟩

namespace Topology

variable {t : Topology} {b : Build}

section Network

variable (wf : t.WellFormed) {network : Group} (mem : network ∈ t.groups) {kind : ResourceKind}
  {given : List (String × ParameterDefinition)} {made : Resource}
  (h : t.Makes (.group network) kind given made) {i : ℕ} {subnet : Group}
  (found : (t.subnetsIn network)[i]? = some subnet)
include wf mem h found

/-- The range of a subnet is what its prefix is read as. -/
theorem WellFormed.rangeAt?_eq : ∃ space range, VirtualNetwork.addressSpace network = .ok space ∧
    Subnet.addressPrefix subnet space i = .ok range ∧
      made.rangeAt? i = AddressSpace.parse? range := by
  cases h with
  | virtualNetwork _ resource =>
      obtain ⟨-, space, listed, hSpace, entries, eq⟩ := VirtualNetwork.resource_spec resource
      rw [VirtualNetwork.subnets_eq wf mem] at entries
      obtain ⟨entry, at', one⟩ := VirtualNetwork.exists_entry_of_getElem? entries found
      obtain ⟨range, hRange, text⟩ := Subnet.textAt?_entry one
      rw [Nat.zero_add] at hRange
      refine ⟨space, range, hSpace, hRange, ?_⟩
      rw [Resource.rangeAt?, eq, List.getElem?_map, at']
      simp [text]

/-- A subnet without a prefix of its own has the range of its place. -/
theorem WellFormed.rangeAt?_of_none (none : subnet.properties.get? "addressPrefix" = none) :
    ∃ space, AddressSpace.parse? network.spaceText = some space ∧ space.length ≤ 24 ∧
      i < 2 ^ (24 - space.length) ∧ made.rangeAt? i = some (space.block i) := by
  obtain ⟨text, range, hSpace, hRange, eq⟩ := wf.rangeAt?_eq mem h found
  obtain ⟨-, rfl⟩ := VirtualNetwork.addressSpace_eq_ok_iff.1 hSpace
  rw [Subnet.addressPrefix, Dict.contains, none] at hRange
  simp only [Option.isSome_none, Bool.false_eq_true, if_false] at hRange
  split at hRange
  · rename_i carved
    cases hRange
    obtain ⟨space, read, wide, room, block⟩ := parse?_of_carveSubnet carved
    rw [AddressSpace.parse?_literal] at read
    exact ⟨space, read, wide, room, eq.trans block⟩
  · cases hRange

/-- A subnet with a prefix of its own has this range. -/
theorem WellFormed.rangeAt?_of_some {text : String}
    (own : subnet.properties.get? "addressPrefix" = some (.string text)) :
    made.rangeAt? i = AddressSpace.parse? text := by
  obtain ⟨space, range, -, hRange, eq⟩ := wf.rangeAt?_eq mem h found
  rw [Subnet.addressPrefix, Dict.contains, own] at hRange
  rcases Element.textProperty_eq_ok_iff.1 hRange with ⟨none, -⟩ | ⟨given, same, rfl⟩
  · rw [Element.properties, own] at none
    cases none
  · rw [Element.properties, own] at same
    cases same
    rw [eq, AddressSpace.parse?_literal]

/-- **The range of a subnet without a prefix is that of its place.** -/
theorem WellFormed.exists_carvesByPlace
    (none : subnet.properties.get? "addressPrefix" = none) :
    ∃ space, AddressSpace.parse? network.spaceText = some space ∧
      made.CarvesByPlace space (t.subnetsIn network) i := by
  obtain ⟨space, read, wide, room, eq⟩ := wf.rangeAt?_of_none mem h found none
  refine ⟨space, read, eq, fun _ => .of_block wide room, fun j ne sibling listed none' => ?_,
    fun j ne sibling text other listed own given short => ⟨?_, ?_⟩⟩
  · obtain ⟨space', read', -, -, eq'⟩ := wf.rangeAt?_of_none mem h listed none'
    obtain rfl := Option.some.inj (read.symm.trans read')
    exact ⟨_, eq', AddressSpace.not_overlaps_block ne.symm⟩
  · rw [wf.rangeAt?_of_some mem h listed own, given]
  · exact AddressSpace.overlaps_iff (by decide : 24 ≤ 32) short

end Network

/-- A resource that is of a network is what the network became. -/
theorem WellFormed.exists_makes_network (wf : t.WellFormed) (built : t.build = .ok (some b))
    {network : Group} (mem : network ∈ t.groups) {r : Resource} (listed : r ∈ b.template.resources)
    (of : r.element = network.id) :
    ∃ kind given, t.Makes (.group network) kind given r := by
  obtain ⟨element, known, kind, -, given, makes⟩ := wf.exists_makes built listed
  obtain rfl := wf.element_ext known (group_mem_elements mem) (makes.element_eq.symm.trans of)
  exact ⟨kind, given, makes⟩

/-- **In each network of a drawing the ranges of the subnets without a prefix of their own are
those of their places.** -/
theorem carvesByPlace_of_build (reachable : t.Reachable) (built : t.build = .ok (some b)) :
    b.CarvesByPlace t := by
  intro network mem kind
  have wf := reachable.wellFormed
  obtain ⟨given, r, listed, makes⟩ :=
    wf.exists_resource built (group_mem_elements mem) kind (by decide)
  exact ⟨r, listed, makes.element_eq, fun i subnet found none =>
    wf.exists_carvesByPlace mem makes found none⟩

/-- A network of which the first subnet has no prefix and the second one says the range of the
first. -/
def crowded : List Edit := [
  .addGroup ⟨⟨"v", "virtual-network", .ofList [("addressPrefix", .string "10.0.0.0/23")],
    none, none⟩, [], []⟩,
  .addGroup ⟨⟨"s1", "subnet", ∅, some "v", none⟩, [], []⟩,
  .addGroup ⟨⟨"s2", "subnet", .ofList [("addressPrefix", .string "10.0.0.0/24")],
    some "v", none⟩, [], []⟩]

theorem exists_build_crowded : ∃ b, (run ∅ crowded).build = .ok (some b) :=
  exists_build_of_visits ⟨crowded, rfl⟩ (by decide +kernel) (by decide +kernel)

/-- The ranges of a crowded network are those of the places, where no range was said. -/
theorem carvesByPlace_crowded :
    ∃ b, (run ∅ crowded).build = .ok (some b) ∧ b.CarvesByPlace (run ∅ crowded) := by
  obtain ⟨b, built⟩ := exists_build_crowded
  exact ⟨b, built, carvesByPlace_of_build ⟨crowded, rfl⟩ built⟩

/-- **The range of a subnet without a prefix may be taken**: a later subnet that says it is
exported with it as well. -/
theorem not_keepsDefaultsFree_crowded : (run ∅ crowded).Reachable ∧
    ∃ b, (run ∅ crowded).build = .ok (some b) ∧ ¬ b.KeepsDefaultsFree (run ∅ crowded) := by
  have reachable : (run ∅ crowded).Reachable := ⟨crowded, rfl⟩
  have wf := reachable.wellFormed
  obtain ⟨b, built⟩ := exists_build_crowded
  refine ⟨reachable, b, built, fun free => ?_⟩
  let network : Group := ⟨⟨"v", "virtual-network",
    .ofList [("addressPrefix", .string "10.0.0.0/23")], none, none⟩, ["s1", "s2"], []⟩
  have mem : network ∈ (run ∅ crowded).groups := by decide +kernel
  have first : ((run ∅ crowded).subnetsIn network)[0]? =
      some ⟨⟨"s1", "subnet", ∅, some "v", none⟩, [], []⟩ := by decide +kernel
  have second : ((run ∅ crowded).subnetsIn network)[1]? =
      some ⟨⟨"s2", "subnet", .ofList [("addressPrefix", .string "10.0.0.0/24")], some "v", none⟩,
        [], []⟩ := by decide +kernel
  have wide : AddressSpace.parse? network.spaceText = some ⟨167772160, 23⟩ := by decide +kernel
  have said : AddressSpace.parse? "10.0.0.0/24" = some ⟨167772160, 24⟩ := by decide +kernel
  obtain ⟨r, listed, of, alone⟩ := free network mem rfl
  obtain ⟨kind, given, makes⟩ := wf.exists_makes_network built mem listed of
  obtain ⟨space, read, -, -, block⟩ := wf.rangeAt?_of_none mem makes first rfl
  obtain rfl := Option.some.inj (wide.symm.trans read)
  have taken := (wf.rangeAt?_of_some mem makes second rfl).trans said
  obtain ⟨range, eq, -, clear⟩ := alone 0 _ first rfl
  obtain rfl := Option.some.inj (block.symm.trans eq)
  exact clear 1 (by decide) _ taken (by decide) ⟨167772160, by decide, by decide⟩

end Topology

end CloudCanvas
