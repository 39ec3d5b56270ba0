import CloudCanvas.Proofs.Export.Texts

/-!
# What elements of a network demand

A network, an interface and a public address contribute to a template exactly if they
follow the rules of their kinds.

The main statements are `VirtualNetwork.contributes_iff`,
`NetworkInterface.contributes_iff` and `PublicIp.contributes_iff`.
-/

namespace CloudCanvas

/-! ## What stands around an element and what is linked to it -/

namespace Topology.WellFormed

variable {t : Topology} (wf : t.WellFormed)
include wf

theorem parentOf_eq_some_iff {element : Element} {outer : Group} :
    t.parentOf element = some outer ↔ outer ∈ t.groups ∧ element.parent = some outer.id := by
  rw [parentOf]
  cases element.parent with
  | none => simp
  | some id =>
      simp only [Option.bind_eq_bind, Option.bind_some, Option.some_inj]
      constructor
      · intro found
        obtain ⟨mem, eq⟩ := mem_of_group?_eq_some found
        exact ⟨mem, eq.symm⟩
      · rintro ⟨mem, rfl⟩
        exact wf.group?_id mem

theorem filter_parentOf_eq_some_iff {element : Element} {kind : ResourceKind} {outer : Group} :
    (t.parentOf element).filter (·.kind == kind.tag) = some outer ↔
      t.IsDirectlyInside element kind outer := by
  rw [Option.filter_eq_some_iff, wf.parentOf_eq_some_iff, IsDirectlyInside, beq_iff_eq, and_assoc]

theorem linkedOfKind_eq_nil_iff {id : String} {kind : ResourceKind} :
    t.linkedOfKind id kind = [] ↔ ¬ ∃ element, t.LinkedKind id kind element := by
  simp [List.eq_nil_iff_forall_not_mem, wf.mem_linkedOfKind_iff]

theorem linkedOfKind_eq_singleton_iff {id : String} {kind : ResourceKind} :
    (∃ element, t.linkedOfKind id kind = [element]) ↔
      ∃! element, t.LinkedKind id kind element := by
  simp only [← wf.mem_linkedOfKind_iff]
  have nodup : (t.linkedOfKind id kind).Nodup := wf.nodup_linkedOfKind
  constructor
  · rintro ⟨element, eq⟩
    rw [eq]
    exact ⟨element, List.mem_singleton_self _, fun other mem => List.mem_singleton.1 mem⟩
  · rintro ⟨element, mem, unique⟩
    refine ⟨element, List.perm_singleton.1 ((List.perm_ext_iff_of_nodup nodup
      (List.nodup_singleton _)).2 fun other => ?_)⟩
    rw [List.mem_singleton]
    exact ⟨unique other, fun eq => eq ▸ mem⟩

end Topology.WellFormed

/-! ## Networks -/

namespace Subnet

variable {subnet : Group} {space : String} {ordinal : ℕ}

theorem exists_addressPrefix_iff :
    (∃ range, addressPrefix subnet space ordinal = .ok range) ↔
      (∃ text, subnet.properties.get? "addressPrefix" = some (.string text)) ∨
        (subnet.properties.get? "addressPrefix" = none ∧
          AddressSpace.HasRange space ordinal) := by
  rw [addressPrefix, Dict.contains, ← isSome_carveSubnet_iff]
  cases found : subnet.properties.get? "addressPrefix" with
  | none =>
      cases carveSubnet space ordinal <;> simp
  | some value =>
      have text := Element.exists_textProperty_iff (.group subnet) "addressPrefix" ""
      simp only [Element.TextOrAbsent] at text
      simp [text, Element.properties, found]

theorem exists_entry_iff : (∃ value, entry subnet space ordinal = .ok value) ↔
    ∃ range, addressPrefix subnet space ordinal = .ok range := by
  rw [entry, exists_bind_eq_ok_iff]
  exact ⟨fun ⟨range, h, _⟩ => ⟨range, h⟩, fun ⟨range, h⟩ => ⟨range, h, _, rfl⟩⟩

end Subnet

namespace VirtualNetwork

variable {t : Topology} {network : Group} {space : String}

/-- One subnet is listed and then the others, unless its name is taken. -/
private theorem exists_entries_cons_iff {seen : List String} {ordinal : ℕ} {subnet : Group}
    {rest : List Group} :
    (∃ listed, entries network space seen ordinal (subnet :: rest) = .ok listed) ↔
      (Element.group subnet).displayName ∉ seen ∧
        (∃ range, Subnet.addressPrefix subnet space ordinal = .ok range) ∧
          ∃ listed, entries network space ((Element.group subnet).displayName :: seen)
            (ordinal + 1) rest = .ok listed := by
  rw [entries, ← Subnet.exists_entry_iff]
  by_cases used : (Element.group subnet).displayName ∈ seen
  · refine iff_of_false ?_ (fun h => h.1 used)
    rintro ⟨listed, h⟩
    simp only [List.contains_eq_mem, used, decide_true, if_true] at h
    cases h
  · simp only [List.contains_eq_mem, used, decide_false, Bool.false_eq_true, if_false,
      not_false_eq_true, true_and]
    constructor
    · rintro ⟨listed, h⟩
      obtain ⟨entry, first, h⟩ := bind_eq_ok_iff.1 h
      obtain ⟨later, others, -⟩ := bind_eq_ok_iff.1 h
      exact ⟨⟨entry, first⟩, later, others⟩
    · rintro ⟨⟨entry, first⟩, later, others⟩
      exact ⟨entry :: later, bind_eq_ok_iff.2 ⟨entry, first,
        bind_eq_ok_iff.2 ⟨later, others, rfl⟩⟩⟩

/-- The subnets of a network are listed if their names are new and different and each of
them has a range. -/
theorem exists_entries_iff {seen : List String} {ordinal : ℕ} {subnets : List Group} :
    (∃ listed, entries network space seen ordinal subnets = .ok listed) ↔
      (∀ subnet ∈ subnets, (Element.group subnet).displayName ∉ seen) ∧
        (subnets.map (fun subnet => (Element.group subnet).displayName)).Nodup ∧
          ∀ i subnet, subnets[i]? = some subnet →
            ∃ range, Subnet.addressPrefix subnet space (ordinal + i) = .ok range := by
  induction subnets generalizing seen ordinal with
  | nil => simp [entries]
  | cons subnet rest ih =>
      have head : (∀ i other, (subnet :: rest)[i]? = some other →
          ∃ range, Subnet.addressPrefix other space (ordinal + i) = .ok range) ↔
          (∃ range, Subnet.addressPrefix subnet space ordinal = .ok range) ∧
            ∀ i other, rest[i]? = some other →
              ∃ range, Subnet.addressPrefix other space (ordinal + 1 + i) = .ok range := by
        constructor
        · intro h
          refine ⟨by simpa using h 0 subnet rfl, fun i other found => ?_⟩
          have := h (i + 1) other (by simpa using found)
          rwa [Nat.add_comm i, ← Nat.add_assoc] at this
        · rintro ⟨first, later⟩ i other found
          cases i with
          | zero =>
              obtain rfl : subnet = other := by simpa using found
              simpa using first
          | succ i =>
              have := later i other (by simpa using found)
              rwa [Nat.add_assoc, Nat.add_comm 1] at this
      rw [exists_entries_cons_iff, ih, head]
      simp only [List.mem_cons, not_or, forall_eq_or_imp, List.map_cons, List.nodup_cons,
        List.mem_map, not_exists, not_and]
      constructor
      · rintro ⟨fresh, range, others, nodup, ranges⟩
        exact ⟨⟨fresh, fun other mem => (others other mem).2⟩,
          ⟨fun other mem => (others other mem).1, nodup⟩, range, ranges⟩
      · rintro ⟨⟨fresh, others⟩, ⟨different, nodup⟩, range, ranges⟩
        exact ⟨fresh, range, fun other mem => ⟨different other mem, others other mem⟩, nodup,
          ranges⟩

/-- The subnets that a network lists are those that say they are in it. -/
theorem subnets_eq (wf : t.WellFormed) (h : network ∈ t.groups) :
    subnets t network = t.subnetsIn network := by
  have children : network.childGroups.filterMap t.group? =
      t.groups.filter (fun group => group.parent == some network.id) := by
    rw [wf.childGroups_eq network h, Topology.groupIdsIn, List.filterMap_map]
    have found : ∀ group ∈ t.groups.filter (fun group => group.parent == some network.id),
        (t.group? ∘ (·.id)) group = some group := fun group mem =>
      wf.group?_id (List.mem_filter.1 mem).1
    rw [List.filterMap_congr found, List.filterMap_some]
  rw [subnets, children, List.filter_filter, Topology.subnetsIn]
  simp only [Bool.and_comm]

/-- The address space that a network is given, as it is written. -/
theorem addressSpace_eq_ok_iff : addressSpace network = .ok space ↔
    (Element.group network).TextOrAbsent "addressPrefix" ∧
      space = literal (((Element.group network).text? "addressPrefix").getD "10.0.0.0/16") := by
  rw [addressSpace, Element.textProperty_eq_ok_iff, Element.TextOrAbsent, Element.text?]
  cases (Element.group network).properties.get? "addressPrefix" with
  | none => simp
  | some value =>
      constructor
      · rintro (⟨none, -⟩ | ⟨given, eq, rfl⟩)
        · cases none
        · obtain rfl := Option.some.inj eq
          exact ⟨fun _ h => ⟨given, (Option.some.inj h).symm⟩, rfl⟩
      · rintro ⟨text, rfl⟩
        obtain ⟨given, rfl⟩ := text value rfl
        exact .inr ⟨given, rfl, rfl⟩

/-- **A network contributes if it follows its rule.** -/
theorem contributes_iff (wf : t.WellFormed) (h : network ∈ t.groups) :
    ((∃ given, parameters network = .ok given) ∧ ∃ made, resource t network = .ok made) ↔
      t.NetworkRule network := by
  have range : ∀ space ordinal subnet,
      (∃ range, Subnet.addressPrefix subnet (literal space) ordinal = .ok range) ↔
        (∃ text, subnet.properties.get? "addressPrefix" = some (.string text)) ∨
          (subnet.properties.get? "addressPrefix" = none ∧
            AddressSpace.HasRange space ordinal) := by
    intro space ordinal subnet
    rw [Subnet.exists_addressPrefix_iff, AddressSpace.HasRange, AddressSpace.parse?_literal]
    rfl
  constructor
  · rintro ⟨-, made, hMade⟩
    obtain ⟨space, hSpace, hMade⟩ := bind_eq_ok_iff.1 hMade
    obtain ⟨listed, hListed, -⟩ := bind_eq_ok_iff.1 hMade
    obtain ⟨text, rfl⟩ := addressSpace_eq_ok_iff.1 hSpace
    rw [subnets_eq wf h] at hListed
    obtain ⟨-, names, ranges⟩ := exists_entries_iff.1 ⟨listed, hListed⟩
    refine ⟨text, names, fun ordinal subnet found => ?_⟩
    have := ranges ordinal subnet found
    rwa [Nat.zero_add, range] at this
  · rintro ⟨text, names, ranges⟩
    have space := addressSpace_eq_ok_iff.2 ⟨text, rfl⟩
    obtain ⟨listed, hListed⟩ :
        ∃ listed, entries network _ [] 0 (t.subnetsIn network) = .ok listed :=
      exists_entries_iff.2 ⟨by simp, names, fun ordinal subnet found => by
        rw [Nat.zero_add, range]
        exact ranges ordinal subnet found⟩
    rw [← subnets_eq wf h] at hListed
    exact ⟨⟨_, bind_eq_ok_iff.2 ⟨_, space, rfl⟩⟩, _, bind_eq_ok_iff.2 ⟨_, space,
      bind_eq_ok_iff.2 ⟨listed, hListed, rfl⟩⟩⟩

end VirtualNetwork

/-! ## Interfaces -/

namespace NetworkInterface

variable {t : Topology} {interface : Node}

theorem subnet_eq_ok_iff (wf : t.WellFormed) {outer : Group} :
    subnet t interface = .ok outer ↔ t.IsDirectlyInside (.node interface) .subnet outer := by
  rw [subnet, ← wf.filter_parentOf_eq_some_iff]
  split <;>
  · rename_i found
    rw [found]
    simp

theorem network_eq_ok_iff (wf : t.WellFormed) {inner outer : Group} :
    network t interface inner = .ok outer ↔
      t.IsDirectlyInside (.group inner) .virtualNetwork outer := by
  rw [network, ← wf.filter_parentOf_eq_some_iff]
  split <;>
  · rename_i found
    rw [found]
    simp

theorem exists_publicIp_iff (wf : t.WellFormed) : (∃ ip, publicIp t interface = .ok ip) ↔
    ∀ ip other, t.LinkedKind interface.id .publicIp ip →
      t.LinkedKind interface.id .publicIp other → ip = other := by
  have nodup : (t.linkedOfKind interface.id .publicIp).Nodup := wf.nodup_linkedOfKind
  simp only [publicIp, ← wf.mem_linkedOfKind_iff]
  split
  · simp_all
  · simp_all
  · rename_i ips notNone notOne
    refine iff_of_false (by simp) fun same => ?_
    match h : t.linkedOfKind interface.id .publicIp with
    | [] => exact notNone h
    | [ip] => exact notOne ip h
    | ip :: other :: _ =>
        rw [h] at nodup same
        have := same ip other (by simp) (by simp)
        simp [this] at nodup

/-- **An interface contributes if it follows its rule.** -/
theorem contributes_iff (wf : t.WellFormed) :
    (∃ made, resource t interface = .ok made) ↔ t.InterfaceRule interface := by
  constructor
  · rintro ⟨made, hMade⟩
    obtain ⟨inner, hInner, hMade⟩ := bind_eq_ok_iff.1 hMade
    obtain ⟨outer, hOuter, hMade⟩ := bind_eq_ok_iff.1 hMade
    obtain ⟨ip, hIp, -⟩ := bind_eq_ok_iff.1 hMade
    exact ⟨⟨inner, (subnet_eq_ok_iff wf).1 hInner, outer, (network_eq_ok_iff wf).1 hOuter⟩,
      (exists_publicIp_iff wf).1 ⟨ip, hIp⟩⟩
  · rintro ⟨⟨inner, hInner, outer, hOuter⟩, unique⟩
    obtain ⟨ip, hIp⟩ := (exists_publicIp_iff wf).2 unique
    exact ⟨_, bind_eq_ok_iff.2 ⟨inner, (subnet_eq_ok_iff wf).2 hInner,
      bind_eq_ok_iff.2 ⟨outer, (network_eq_ok_iff wf).2 hOuter,
        bind_eq_ok_iff.2 ⟨ip, hIp, rfl⟩⟩⟩⟩

end NetworkInterface

/-! ## Public addresses -/

namespace PublicIp

variable {ip : Node}

theorem exists_parameters_iff : (∃ given, parameters ip = .ok given) ↔
    (Element.node ip).OneOfOrAbsent "allocation" ["Dynamic", "Static"] := by
  rw [parameters, exists_bind_eq_ok_iff,
    ← Element.exists_textProperty_mem_iff (literal_mem_iff (by decide)) List.mem_cons_self]
  refine exists_congr fun allocation => and_congr_right fun _ => ?_
  by_cases known : allocation ∈ allocations
  · exact iff_of_true ⟨_, by simp [known]; rfl⟩ known
  · refine iff_of_false ?_ known
    rintro ⟨given, h⟩
    simp [known] at h

/-- **A public address contributes if it follows its rule.** -/
theorem contributes_iff :
    ((∃ given, parameters ip = .ok given) ∧ ∃ made, resource ip = .ok made) ↔
      (Element.node ip).OneOfOrAbsent "allocation" ["Dynamic", "Static"] ∧
        (Element.node ip).TextOrAbsent "sku" := by
  rw [exists_parameters_iff, resource, exists_bind_eq_ok_iff,
    ← Element.exists_textProperty_iff (.node ip) "sku" "Basic"]
  exact and_congr_right fun _ => exists_congr fun _ => and_iff_left ⟨_, rfl⟩

end PublicIp

end CloudCanvas
