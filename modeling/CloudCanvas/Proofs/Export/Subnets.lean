import CloudCanvas.Proofs.Export.Contributions

/-!
# Subnets are exported by their networks

The visits leave a group to the group around it because of what the group says of itself:
that it is a subnet inside a network.  A network lists its subnets because of what it says of
itself: which groups it contains.  In a drawing of which a template is built the two agree, so
every subnet is left to a network and is listed by this network once.

## Main definitions

* `Topology.subnetChildren`: the subnets that a group says it contains.
* `Subnet.IsListedAs`: an entry of a network is about a subnet.
* `Build.ListsSubnets`: the subnets of a drawing are what the networks of a template list.

The main statement is `Topology.listsSubnets_of_build`.
-/

namespace CloudCanvas

/-- The subnets among the groups that a group says it contains, in their order there. -/
def Topology.subnetChildren (t : Topology) (id : String) : List Group :=
  match t.group? id with
  | some group =>
    (group.childGroups.filterMap t.group?).filter (·.kind == ResourceKind.subnet.tag)
  | none => []

/-- An entry in the list of a network is about a subnet: it has the name of the subnet, and
its range if the subnet has one of its own. -/
structure Subnet.IsListedAs (subnet : Group) (entry : Json) : Prop where
  name_eq : (entry.textAt? ["name"]).map plainText = some (Element.group subnet).displayName
  range_eq : ∀ range, subnet.properties.get? "addressPrefix" = some (.string range) →
    (entry.textAt? ["properties", "addressPrefix"]).map plainText = some range

/-! ## One network -/

theorem Subnet.isListedAs_entry {subnet : Group} {space : String} {ordinal : ℕ} {entry : Value}
    (h : Subnet.entry subnet space ordinal = .ok entry) : IsListedAs subnet entry.json := by
  rw [Subnet.entry, bind_eq_ok_iff] at h
  obtain ⟨range, hRange, h⟩ := h
  cases h
  constructor
  · simp (disch := simp) [Json.textAt?, Value.field?_ofMembers]
  · intro own found
    have given : (Element.group subnet).textProperty "addressPrefix" "" = .ok range := by
      rwa [addressPrefix, Dict.contains, found] at hRange
    rcases Element.textProperty_eq_ok_iff.1 given with ⟨none, -⟩ | ⟨text, eq, rfl⟩
    · rw [Element.properties, found] at none
      cases none
    · rw [Element.properties, found] at eq
      cases eq
      simp (disch := simp) [Json.textAt?, Value.field?_ofMembers, List.lookup_cons]

/-- A network has one entry for each of its subnets, in their order: whatever an entry says of
its subnet, the entries say of the subnets. -/
theorem VirtualNetwork.forall₂_entries {R : Group → Json → Prop} {space : String}
    (each : ∀ subnet ordinal entry, Subnet.entry subnet space ordinal = .ok entry →
      R subnet entry.json) {network : Group} {seen : List String} {ordinal : ℕ}
    {subnets : List Group} {listed : List Value}
    (h : entries network space seen ordinal subnets = .ok listed) :
    List.Forall₂ R subnets (listed.map (·.json)) := by
  induction subnets generalizing seen ordinal listed with
  | nil =>
      cases h
      exact .nil
  | cons subnet rest ih =>
      rw [entries] at h
      split at h
      · cases h
      · simp only [bind_eq_ok_iff] at h
        obtain ⟨entry, first, later, others, h⟩ := h
        cases h
        exact .cons (each _ _ _ first) (ih others)

namespace Topology

variable {t : Topology} {b : Build}

/-- The subnets of a drawing. -/
def subnets (t : Topology) : List Group :=
  t.groups.filter (·.kind == ResourceKind.subnet.tag)

theorem mem_subnets {subnet : Group} :
    subnet ∈ t.subnets ↔ subnet ∈ t.groups ∧ subnet.kind = ResourceKind.subnet.tag := by
  simp [subnets]

namespace WellFormed

variable (wf : t.WellFormed)
include wf

/-- What a group says it contains are the groups that say they are in it. -/
theorem subnetChildren_group {group : Group} (mem : group ∈ t.groups) :
    t.subnetChildren group.id = t.subnetsIn group := by
  rw [subnetChildren, wf.group?_id mem]
  exact VirtualNetwork.subnets_eq wf mem

theorem subnetChildren_node {node : Node} (mem : node ∈ t.nodes) :
    t.subnetChildren node.id = [] := by
  have none : t.group? node.id = none := by
    rw [group?, List.find?_eq_none]
    intro group listed
    simpa using (wf.node_ne_group mem listed).symm
  rw [subnetChildren, none]

theorem mem_subnetChildren_iff {element : Element} (mem : element ∈ t.elements)
    {subnet : Group} : subnet ∈ t.subnetChildren element.id ↔
      subnet ∈ t.subnets ∧ subnet.parent = some element.id := by
  rw [mem_subnets]
  rcases mem_elements.1 mem with ⟨group, listed, rfl⟩ | ⟨node, listed, rfl⟩
  · rw [Element.id, wf.subnetChildren_group listed, subnetsIn]
    simp [and_comm, and_left_comm]
  · rw [Element.id, wf.subnetChildren_node listed]
    refine iff_of_false List.not_mem_nil fun inside => ?_
    obtain ⟨outer, around, eq⟩ := wf.group_parent inside.1.1 inside.2
    exact wf.node_ne_group listed around eq.symm

theorem nodup_subnetChildren {element : Element} (mem : element ∈ t.elements) :
    (t.subnetChildren element.id).Nodup := by
  rcases mem_elements.1 mem with ⟨group, listed, rfl⟩ | ⟨node, listed, rfl⟩
  · rw [Element.id, wf.subnetChildren_group listed]
    exact (List.Nodup.of_map _ wf.groupIds_nodup).filter _
  · rw [Element.id, wf.subnetChildren_node listed]
    exact .nil

/-- The resource of an element lists the subnets that the element says it contains, each with
what an entry says of its subnet. -/
theorem forall₂_subnets_of_entry {R : Group → Json → Prop}
    (each : ∀ space subnet ordinal entry, Subnet.entry subnet space ordinal = .ok entry →
      R subnet entry.json) {element : Element} (mem : element ∈ t.elements) {kind : ResourceKind}
    {given : List (String × ParameterDefinition)} {made : Resource}
    (h : t.Makes element kind given made) :
    List.Forall₂ R (t.subnetChildren element.id) made.subnets := by
  rcases mem_elements.1 mem with ⟨network, listed, rfl⟩ | ⟨node, listed, rfl⟩
  · cases h with
    | virtualNetwork _ resource =>
        obtain ⟨-, space, listed', -, entries, eq⟩ := VirtualNetwork.resource_spec resource
        rw [eq, subnetChildren, Element.id, wf.group?_id listed]
        exact VirtualNetwork.forall₂_entries (each space) entries
  · have other : kind ≠ .virtualNetwork := by
      rintro rfl
      cases h
    obtain ⟨name, references, isMadeOf, -⟩ := h.exists_isMadeOf
    rw [isMadeOf.subnets_eq other, Element.id, wf.subnetChildren_node listed]
    exact .nil

theorem forall₂_subnets {element : Element} (mem : element ∈ t.elements) {kind : ResourceKind}
    {given : List (String × ParameterDefinition)} {made : Resource}
    (h : t.Makes element kind given made) :
    List.Forall₂ Subnet.IsListedAs (t.subnetChildren element.id) made.subnets :=
  wf.forall₂_subnets_of_entry (fun _ _ _ _ => Subnet.isListedAs_entry) mem h

/-! ## The whole template -/

variable (built : t.build = .ok (some b))
include built

/-- In a drawing that can be exported a group is delegated if it is a subnet. -/
theorem isDelegated_eq_of_build {group : Group} (mem : group ∈ t.groups) :
    t.isDelegated group = (group.kind == ResourceKind.subnet.tag) := by
  rw [Bool.eq_iff_iff, beq_iff_eq, wf.isDelegated_iff]
  have rule := (wf.exportable_of_build built).groups group mem .subnet
  exact ⟨fun delegated => delegated.1, fun subnet => ⟨subnet, rule subnet⟩⟩

/-- **The visits leave exactly the subnets to the groups around them.** -/
theorem delegated_perm : b.report.delegated.Perm (t.subnets.map (·.id)) := by
  obtain ⟨contributions, h⟩ := exists_contributions built
  have groups : (t.groups.map Element.group).filter (t.fate · = .delegated) =
      t.subnets.map .group := by
    rw [List.filter_map, subnets]
    refine congrArg _ (List.filter_congr fun group mem => ?_)
    rw [← wf.isDelegated_eq_of_build built mem]
    simp [fate_eq_delegated_iff]
  have nodes : (t.nodes.map Element.node).filter (t.fate · = .delegated) = [] := by
    rw [List.filter_eq_nil_iff]
    intro element mem
    obtain ⟨node, -, rfl⟩ := List.mem_map.1 mem
    rw [decide_eq_true_eq]
    exact ownFate_ne_delegated (.node node)
  have perm := (wf.visitOrder_perm.filter (t.fate · = .delegated)).map Element.id
  rw [elements, List.filter_append, groups, nodes, List.append_nil, List.map_map] at perm
  rw [h.delegated_eq]
  exact perm

theorem mem_flatMap_subnetChildren_iff (subnet : Group) :
    subnet ∈ b.template.resources.flatMap (fun r => t.subnetChildren r.element) ↔
      subnet ∈ t.subnets := by
  rw [List.mem_flatMap]
  constructor
  · intro ⟨r, listed, inside⟩
    obtain ⟨element, mem, kind, -, given, makes⟩ := wf.exists_makes built listed
    rw [makes.element_eq, wf.mem_subnetChildren_iff mem] at inside
    exact inside.1
  · intro mem
    obtain ⟨inner, kind⟩ := mem_subnets.1 mem
    -- the rule of a subnet puts a network around it, and this network is exported
    obtain ⟨network, outer, parent, networkKind⟩ :=
      (wf.exportable_of_build built).groups subnet inner .subnet kind
    have known := group_mem_elements outer
    obtain ⟨given, r, listed, makes⟩ := wf.exists_resource built known networkKind (by decide)
    refine ⟨r, listed, ?_⟩
    rw [makes.element_eq, wf.mem_subnetChildren_iff known]
    exact ⟨mem, parent⟩

theorem nodup_flatMap_subnetChildren :
    (b.template.resources.flatMap (fun r => t.subnetChildren r.element)).Nodup := by
  have inside : ∀ r ∈ b.template.resources, ∃ element ∈ t.elements, r.element = element.id := by
    intro r listed
    obtain ⟨element, mem, kind, -, given, makes⟩ := wf.exists_makes built listed
    exact ⟨element, mem, makes.element_eq⟩
  rw [List.nodup_flatMap]
  refine ⟨fun r listed => ?_, ?_⟩
  · obtain ⟨element, mem, eq⟩ := inside r listed
    rw [eq]
    exact wf.nodup_subnetChildren mem
  · have different := List.pairwise_map.1 (wf.nodup_map_element built)
    refine different.imp_of_mem ?_
    intro r other hr hOther ne subnet (inR : subnet ∈ t.subnetChildren r.element)
      (inOther : subnet ∈ t.subnetChildren other.element)
    obtain ⟨element, mem, eq⟩ := inside r hr
    obtain ⟨element', mem', eq'⟩ := inside other hOther
    rw [eq, wf.mem_subnetChildren_iff mem] at inR
    rw [eq', wf.mem_subnetChildren_iff mem'] at inOther
    rw [eq, eq'] at ne
    exact ne (Option.some.inj (inR.2.symm.trans inOther.2))

end WellFormed

end Topology

/-- The networks of a template list the subnets of a drawing: the delegated groups are the
subnets, each resource lists the subnets that its element contains, in their order there, and
each subnet stands in one list, that of the group directly around it. -/
structure Build.ListsSubnets (b : Build) (t : Topology) : Prop where
  delegated_iff : ∀ group ∈ t.groups,
    group.id ∈ b.report.delegated ↔ group.kind = ResourceKind.subnet.tag
  delegated_groups : ∀ id ∈ b.report.delegated, id ∈ t.groups.map (·.id)
  entries : ∀ r ∈ b.template.resources,
    List.Forall₂ Subnet.IsListedAs (t.subnetChildren r.element) r.subnets
  parent_eq : ∀ r ∈ b.template.resources, ∀ subnet ∈ t.subnetChildren r.element,
    subnet.parent = some r.element
  count_eq : ∀ group ∈ t.groups,
    (b.template.resources.flatMap (fun r => t.subnetChildren r.element)).count group =
      if group.kind = ResourceKind.subnet.tag then 1 else 0
  length_eq : (b.template.resources.map (·.subnets.length)).sum = b.report.delegated.length

namespace Topology

variable {t : Topology} {b : Build}

/-- **The visits and the networks agree on the subnets.** -/
theorem listsSubnets_of_build (reachable : t.Reachable) (built : t.build = .ok (some b)) :
    b.ListsSubnets t := by
  have wf := reachable.wellFormed
  have delegated := wf.delegated_perm built
  have entries : ∀ r ∈ b.template.resources,
      List.Forall₂ Subnet.IsListedAs (t.subnetChildren r.element) r.subnets := by
    intro r listed
    obtain ⟨element, mem, kind, -, given, makes⟩ := wf.exists_makes built listed
    rw [makes.element_eq]
    exact wf.forall₂_subnets mem makes
  have once := wf.nodup_flatMap_subnetChildren built
  have all : (b.template.resources.flatMap (fun r => t.subnetChildren r.element)).Perm t.subnets :=
    (List.perm_ext_iff_of_nodup once ((List.Nodup.of_map _ wf.groupIds_nodup).filter _)).2
      (wf.mem_flatMap_subnetChildren_iff built)
  refine ⟨fun group mem => ?_, fun id listed => ?_, entries, fun r listed subnet inside => ?_,
    fun group mem => ?_, ?_⟩
  · rw [delegated.mem_iff, List.mem_map]
    constructor
    · intro ⟨subnet, listed, eq⟩
      obtain ⟨known, kind⟩ := mem_subnets.1 listed
      rwa [← wf.group_ext known mem eq]
    · intro kind
      exact ⟨group, mem_subnets.2 ⟨mem, kind⟩, rfl⟩
  · obtain ⟨subnet, mem, rfl⟩ := List.mem_map.1 (delegated.mem_iff.1 listed)
    exact List.mem_map_of_mem (mem_subnets.1 mem).1
  · obtain ⟨element, mem, kind, -, given, makes⟩ := wf.exists_makes built listed
    rw [makes.element_eq] at inside ⊢
    exact ((wf.mem_subnetChildren_iff mem).1 inside).2
  · have listed := (wf.mem_flatMap_subnetChildren_iff built group).trans mem_subnets
    by_cases kind : group.kind = ResourceKind.subnet.tag
    · rw [if_pos kind, List.count_eq_one_of_mem once (listed.2 ⟨mem, kind⟩)]
    · rw [if_neg kind, List.count_eq_zero_of_not_mem fun inside => kind (listed.1 inside).2]
  · have lengths : b.template.resources.map (·.subnets.length) =
        b.template.resources.map (fun r => (t.subnetChildren r.element).length) :=
      List.map_congr_left fun r listed => (entries r listed).length_eq.symm
    rw [lengths, ← List.length_flatMap, all.length_eq, delegated.length_eq, List.length_map]

/-- So it is for a drawing with an element of every kind. -/
theorem exists_listsSubnets_everyKind :
    ∃ b, (run ∅ everyKind).build = .ok (some b) ∧ b.ListsSubnets (run ∅ everyKind) := by
  obtain ⟨b, built⟩ := exists_build_everyKind
  exact ⟨b, built, listsSubnets_of_build ⟨everyKind, rfl⟩ built⟩

end Topology

end CloudCanvas
