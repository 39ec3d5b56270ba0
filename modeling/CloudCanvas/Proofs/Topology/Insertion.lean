import CloudCanvas.Proofs.Topology.Change
import CloudCanvas.Proofs.Topology.WellFormed
import Mathlib.Data.List.Nodup

/-!
# Insertions

When an insertion is done or refused, what it makes of a drawing, and that it keeps the
drawing well-formed.

## Main definitions

* `Topology.withNode`, `Topology.withGroup`, `Topology.withLink`: a drawing with one
  element more.
* `Group.listNode`, `Group.listGroup`: what an insertion changes in a group.
-/

namespace CloudCanvas

namespace Properties

variable {properties : Properties}

theorem noNulls_withoutNulls : properties.withoutNulls.NoNulls := by
  intro entry mem
  simpa using (List.mem_filter.1 mem).2

/-- Properties that all have a value are kept as they are. -/
theorem NoNulls.withoutNulls_eq (h : properties.NoNulls) :
    properties.withoutNulls = properties := by
  refine Dict.ext (List.filter_eq_self.2 fun entry mem => ?_)
  simpa using h entry mem

end Properties

namespace Group

/-- A group with a node listed behind its others, if it is the one around it. -/
def listNode (parent : Option String) (id : String) (group : Group) : Group :=
  if parent = some group.id then { group with childNodes := group.childNodes ++ [id] } else group

/-- A group with a subgroup listed behind its others, if it is the one around it. -/
def listGroup (parent : Option String) (id : String) (group : Group) : Group :=
  if parent = some group.id then { group with childGroups := group.childGroups ++ [id] }
  else group

variable (parent : Option String) (id : String) (group : Group)

@[simp] theorem toGroupRecord_listNode :
    (listNode parent id group).toGroupRecord = group.toGroupRecord := by
  rw [listNode]; split <;> rfl

@[simp] theorem toGroupRecord_listGroup :
    (listGroup parent id group).toGroupRecord = group.toGroupRecord := by
  rw [listGroup]; split <;> rfl

@[simp] theorem childGroups_listNode :
    (listNode parent id group).childGroups = group.childGroups := by
  rw [listNode]; split <;> rfl

@[simp] theorem childNodes_listGroup :
    (listGroup parent id group).childNodes = group.childNodes := by
  rw [listGroup]; split <;> rfl

theorem childNodes_listNode : (listNode parent id group).childNodes =
    group.childNodes ++ if parent = some group.id then [id] else [] := by
  rw [listNode]; split <;> simp

theorem childGroups_listGroup : (listGroup parent id group).childGroups =
    group.childGroups ++ if parent = some group.id then [id] else [] := by
  rw [listGroup]; split <;> simp

end Group

namespace Topology

variable {t t' : Topology} {id : String}

/-! ## Entering an element into a group -/

section Enter

variable (parent : Option String)

@[simp] theorem nodes_enterNode : (t.enterNode parent id).nodes = t.nodes := by
  cases parent <;> rfl

@[simp] theorem links_enterNode : (t.enterNode parent id).links = t.links := by
  cases parent <;> rfl

@[simp] theorem groups_enterNode :
    (t.enterNode parent id).groups = t.groups.map (Group.listNode parent id) := by
  cases parent with
  | none =>
      refine (List.map_id _).symm.trans (List.map_congr_left fun _ _ => ?_)
      simp [Group.listNode]
  | some p => exact List.map_congr_left fun _ _ => by simp [Group.listNode, eq_comm]

@[simp] theorem nodes_enterGroup : (t.enterGroup parent id).nodes = t.nodes := by
  cases parent <;> rfl

@[simp] theorem links_enterGroup : (t.enterGroup parent id).links = t.links := by
  cases parent <;> rfl

@[simp] theorem groups_enterGroup :
    (t.enterGroup parent id).groups = t.groups.map (Group.listGroup parent id) := by
  cases parent with
  | none =>
      refine (List.map_id _).symm.trans (List.map_congr_left fun _ _ => ?_)
      simp [Group.listGroup]
  | some p => exact List.map_congr_left fun _ _ => by simp [Group.listGroup, eq_comm]

end Enter

/-! ## When an insertion is done -/

theorem missingParent_eq_none_iff {parent : Option String} :
    t.missingParent parent = none ↔ ∀ p, parent = some p → p ∈ t.groups.map (·.id) := by
  cases parent with
  | none => simp [missingParent]
  | some p =>
      rw [missingParent, Option.filter_eq_none_iff]
      simp [← isSome_group?_iff, Option.isSome_iff_ne_none]

theorem missingEndpoint_eq_none_iff {link : Link} :
    t.missingEndpoint link = none ↔ link.source ∈ t.elementIds ∧ link.target ∈ t.elementIds := by
  rw [missingEndpoint, List.find?_eq_none]
  simp [← isSome_element?_iff, Option.isSome_iff_ne_none]

theorem missingParent_eq_some_iff {parent : Option String} {p : String} :
    t.missingParent parent = some p ↔ parent = some p ∧ p ∉ t.groups.map (·.id) := by
  rw [missingParent, Option.filter_eq_some_iff]
  simp [← isSome_group?_iff]

/-- The source of a link is looked for before its target. -/
theorem missingEndpoint_eq_some_iff {link : Link} {id : String} :
    t.missingEndpoint link = some id ↔
      link.source ∉ t.elementIds ∧ link.source = id ∨
        link.source ∈ t.elementIds ∧ link.target ∉ t.elementIds ∧ link.target = id := by
  have absent : ∀ id, (t.element? id).isNone = true ↔ id ∉ t.elementIds := by
    intro id
    rw [← isSome_element?_iff]
    simp
  rw [missingEndpoint, List.find?_cons]
  by_cases source : link.source ∈ t.elementIds
  · have found : (t.element? link.source).isNone = false := by
      rw [Bool.eq_false_iff, ne_eq, absent]
      simpa using source
    simp only [found, List.find?_singleton, absent]
    simp [source]
  · simp [(absent _).2 source, source]

/-- A drawing with a node more, whether or not that is allowed. -/
def withNode (t : Topology) (node : Node) : Topology :=
  { t.enterNode node.group node.id with
    nodes := (t.enterNode node.group node.id).nodes ++
      [{ node with properties := node.properties.withoutNulls }] }

/-- A drawing with an empty group more, whether or not that is allowed. -/
def withGroup (t : Topology) (group : Group) : Topology :=
  { t.enterGroup group.parent group.id with
    groups := (t.enterGroup group.parent group.id).groups ++ [{ group with
      properties := group.properties.withoutNulls, childGroups := [], childNodes := [] }] }

/-- A drawing with a link more, whether or not that is allowed. -/
def withLink (t : Topology) (link : Link) : Topology :=
  { t with links := t.links ++ [{ link with properties := link.properties.withoutNulls }] }

/-- What an insertion on a copy comes to: its id must be new, and then nothing that it refers to
may be missing. -/
theorem tried_insertion (t : Topology) (id : String) (missing : Topology → Option String)
    (fault : String → IntegrityError) (change : Change Unit) :
    (t.tried (do
      Change.check (·.usedId? id)
      Change.check (fun t => (missing t).map fault)
      change)).map (·.2) =
        if t.uses id then .error (.duplicateId id)
        else match missing t with
          | some other => .error (fault other)
          | none => (t.tried change).map (·.2) := by
  rw [tried_checks, usedId?]
  cases t.uses id <;> cases missing t <;> rfl

theorem addNode_eq (t : Topology) (node : Node) : t.addNode node =
    if t.uses node.id then .error (.duplicateId node.id)
    else match t.missingParent node.group with
      | some parent => .error (.unknownParent node.id parent)
      | none => .ok (t.withNode node) :=
  tried_insertion t node.id _ _ _

theorem addGroup_eq (t : Topology) (group : Group) : t.addGroup group =
    if t.uses group.id then .error (.duplicateId group.id)
    else match t.missingParent group.parent with
      | some parent => .error (.unknownParent group.id parent)
      | none => .ok (t.withGroup group) :=
  tried_insertion t group.id _ _ _

theorem addLink_eq (t : Topology) (link : Link) : t.addLink link =
    if t.uses link.id then .error (.duplicateId link.id)
    else match t.missingEndpoint link with
      | some endpoint => .error (.danglingEndpoint link.id endpoint)
      | none => .ok (t.withLink link) :=
  tried_insertion t link.id _ _ _

/-- An insertion is done if its id is new and nothing is missing. -/
theorem insertion_eq_ok_iff {missing : Option String} {fault : String → IntegrityError}
    {u : Topology} :
    (if t.uses id then .error (.duplicateId id)
      else match missing with
        | some other => .error (fault other)
        | none => .ok u) = Except.ok t' ↔ id ∉ t.ids ∧ missing = none ∧ t' = u := by
  rw [← uses_iff]
  cases t.uses id with
  | true => simp
  | false => cases missing <;> simp [eq_comm]

theorem addNode_eq_ok_iff {node : Node} : t.addNode node = .ok t' ↔
    node.id ∉ t.ids ∧ (∀ p, node.group = some p → p ∈ t.groups.map (·.id)) ∧
      t' = t.withNode node := by
  rw [← missingParent_eq_none_iff, addNode_eq]
  exact insertion_eq_ok_iff

theorem addGroup_eq_ok_iff {group : Group} : t.addGroup group = .ok t' ↔
    group.id ∉ t.ids ∧ (∀ p, group.parent = some p → p ∈ t.groups.map (·.id)) ∧
      t' = t.withGroup group := by
  rw [← missingParent_eq_none_iff, addGroup_eq]
  exact insertion_eq_ok_iff

theorem addLink_eq_ok_iff {link : Link} : t.addLink link = .ok t' ↔
    link.id ∉ t.ids ∧ (link.source ∈ t.elementIds ∧ link.target ∈ t.elementIds) ∧
      t' = t.withLink link := by
  rw [← missingEndpoint_eq_none_iff, addLink_eq]
  exact insertion_eq_ok_iff

/-! ## When an insertion is refused -/

section Refused

variable {e : IntegrityError}

/-- An insertion is refused for its id or, if that is new, for what is missing. -/
theorem insertion_eq_error_iff {missing : Option String} {fault : String → IntegrityError}
    {u : Topology} :
    (if t.uses id then .error (.duplicateId id)
      else match missing with
        | some other => .error (fault other)
        | none => .ok u) = Except.error e ↔
      id ∈ t.ids ∧ .duplicateId id = e ∨
        id ∉ t.ids ∧ ∃ other, missing = some other ∧ fault other = e := by
  rw [← uses_iff]
  cases t.uses id with
  | true => simp
  | false => cases missing <;> simp

/-- A node is refused for its id or, if that is new, for the group around it. -/
theorem addNode_eq_error_iff {node : Node} : t.addNode node = .error e ↔
    node.id ∈ t.ids ∧ .duplicateId node.id = e ∨
      node.id ∉ t.ids ∧ ∃ p, t.missingParent node.group = some p ∧
        .unknownParent node.id p = e := by
  rw [addNode_eq]
  exact insertion_eq_error_iff

/-- A group is refused for its id or, if that is new, for the group around it. -/
theorem addGroup_eq_error_iff {group : Group} : t.addGroup group = .error e ↔
    group.id ∈ t.ids ∧ .duplicateId group.id = e ∨
      group.id ∉ t.ids ∧ ∃ p, t.missingParent group.parent = some p ∧
        .unknownParent group.id p = e := by
  rw [addGroup_eq]
  exact insertion_eq_error_iff

/-- A link is refused for its id or, if that is new, for one of its ends. -/
theorem addLink_eq_error_iff {link : Link} : t.addLink link = .error e ↔
    link.id ∈ t.ids ∧ .duplicateId link.id = e ∨
      link.id ∉ t.ids ∧ ∃ id, t.missingEndpoint link = some id ∧
        .danglingEndpoint link.id id = e := by
  rw [addLink_eq]
  exact insertion_eq_error_iff

end Refused

/-! ## Insertions keep the invariant -/

theorem elementIds_withNode {node : Node} : (t.withNode node).elementIds =
    t.nodes.map (·.id) ++ node.id :: t.groups.map (·.id) := by
  simp [elementIds, withNode, Function.comp_def]

theorem elementIds_withGroup {group : Group} :
    (t.withGroup group).elementIds = t.elementIds ++ [group.id] := by
  simp [elementIds, withGroup, Function.comp_def]

theorem elementIds_withLink {link : Link} : (t.withLink link).elementIds = t.elementIds := rfl

theorem groupIdsIn_withNode {node : Node} :
    (t.withNode node).groupIdsIn id = t.groupIdsIn id := by
  simp only [groupIdsIn, withNode, groups_enterNode]
  exact filter_parent_map (fun _ _ => by simp) (fun _ _ => by simp)

theorem nodeIdsIn_withNode {node : Node} : (t.withNode node).nodeIdsIn id =
    t.nodeIdsIn id ++ if node.group = some id then [node.id] else [] := by
  by_cases here : node.group = some id
  · simp [nodeIdsIn, withNode, here]
  · simp [nodeIdsIn, withNode, here]

theorem groupIdsIn_withGroup {group : Group} : (t.withGroup group).groupIdsIn id =
    t.groupIdsIn id ++ if group.parent = some id then [group.id] else [] := by
  simp only [groupIdsIn, withGroup, groups_enterGroup, List.filter_append, List.map_append]
  rw [filter_parent_map (fun _ _ => by simp) (fun _ _ => by simp)]
  by_cases here : group.parent = some id
  · simp [here]
  · simp [here]

theorem nodeIdsIn_withGroup {group : Group} :
    (t.withGroup group).nodeIdsIn id = t.nodeIdsIn id := by
  simp [nodeIdsIn, withGroup]

/-- An id that is not in use is not that of a group. -/
theorem groupId_absent (fresh : id ∉ t.ids) : id ∉ t.groups.map (·.id) := by
  intro mem
  exact fresh (mem_ids.2 (.inl (List.mem_append_right _ mem)))

namespace WellFormed

variable (wf : t.WellFormed)
include wf

/-- No group is inside one that is not there. -/
theorem groupIdsIn_eq_nil (absent : id ∉ t.groups.map (·.id)) : t.groupIdsIn id = [] := by
  rw [groupIdsIn, List.map_eq_nil_iff, List.filter_eq_nil_iff]
  intro group hGroup
  rw [beq_iff_eq]
  intro inside
  obtain ⟨outer, mem, same⟩ := wf.group_parent hGroup inside
  exact absent (List.mem_map.2 ⟨outer, mem, same⟩)

/-- No node is inside a group that is not there. -/
theorem nodeIdsIn_eq_nil (absent : id ∉ t.groups.map (·.id)) : t.nodeIdsIn id = [] := by
  rw [nodeIdsIn, List.map_eq_nil_iff, List.filter_eq_nil_iff]
  intro node hNode
  rw [beq_iff_eq]
  intro inside
  exact absent (wf.node_group node hNode id inside)

theorem withNode {node : Node} (fresh : node.id ∉ t.ids)
    (inside : ∀ p, node.group = some p → p ∈ t.groups.map (·.id)) :
    (t.withNode node).WellFormed where
  ids_nodup := by
    have links : (t.withNode node).links = t.links := by simp [Topology.withNode]
    rw [Topology.ids, elementIds_withNode, links, List.append_assoc, List.cons_append,
      List.nodup_middle, List.nodup_cons, ← List.append_assoc]
    exact ⟨fresh, wf.ids_nodup⟩
  parents_first := by
    simp only [Topology.withNode, groups_enterNode]
    exact parentsFirst_map (fun _ _ => by simp) (fun _ _ => by simp) wf.parents_first
  node_group := by
    simp only [Topology.withNode, groups_enterNode, nodes_enterNode]
    rw [map_id_map fun _ _ => by simp]
    intro n hn p eq
    rcases List.mem_append.1 hn with hn | hn
    · exact wf.node_group n hn p eq
    · obtain rfl := List.mem_singleton.1 hn
      exact inside p eq
  childGroups_eq := by
    intro group hGroup
    simp only [Topology.withNode, groups_enterNode] at hGroup
    obtain ⟨old, mem, rfl⟩ := List.mem_map.1 hGroup
    rw [groupIdsIn_withNode]
    simpa using wf.childGroups_eq old mem
  childNodes_eq := by
    intro group hGroup
    simp only [Topology.withNode, groups_enterNode] at hGroup
    obtain ⟨old, mem, rfl⟩ := List.mem_map.1 hGroup
    rw [Group.childNodes_listNode, wf.childNodes_eq old mem, nodeIdsIn_withNode]
    simp
  link_ends := by
    have grown : ∀ end' ∈ t.elementIds, end' ∈ (t.withNode node).elementIds := by
      intro end' mem
      rw [elementIds_withNode, List.mem_append, List.mem_cons]
      exact (List.mem_append.1 mem).imp_right .inr
    simp only [Topology.withNode, links_enterNode]
    exact fun link mem => (wf.link_ends link mem).imp (grown _) (grown _)
  node_noNulls := by
    simp only [Topology.withNode, nodes_enterNode]
    intro n hn
    rcases List.mem_append.1 hn with hn | hn
    · exact wf.node_noNulls n hn
    · obtain rfl := List.mem_singleton.1 hn
      exact Properties.noNulls_withoutNulls
  group_noNulls := by
    simp only [Topology.withNode, groups_enterNode]
    intro group hGroup
    obtain ⟨old, mem, rfl⟩ := List.mem_map.1 hGroup
    simpa using wf.group_noNulls old mem
  link_noNulls := by
    simpa [Topology.withNode] using wf.link_noNulls

theorem withGroup {group : Group} (fresh : group.id ∉ t.ids)
    (inside : ∀ p, group.parent = some p → p ∈ t.groups.map (·.id)) :
    (t.withGroup group).WellFormed where
  ids_nodup := by
    have links : (t.withGroup group).links = t.links := by simp [Topology.withGroup]
    rw [Topology.ids, elementIds_withGroup, links, List.append_assoc, List.singleton_append,
      List.nodup_middle, List.nodup_cons]
    exact ⟨fresh, wf.ids_nodup⟩
  parents_first := by
    simp only [Topology.withGroup, groups_enterGroup]
    refine parentsFirst_concat ?_ ?_
    · exact parentsFirst_map (fun _ _ => by simp) (fun _ _ => by simp) wf.parents_first
    · rwa [map_id_map fun _ _ => by simp]
  node_group := by
    simp only [Topology.withGroup, groups_enterGroup, nodes_enterGroup, List.map_append]
    rw [map_id_map fun _ _ => by simp]
    exact fun n hn p eq => List.mem_append_left _ (wf.node_group n hn p eq)
  childGroups_eq := by
    -- nothing is inside the new group, as whatever contains an element was there before
    have absent := groupId_absent fresh
    have notSelf : group.parent ≠ some group.id := fun eq => absent (inside _ eq)
    intro g hg
    simp only [Topology.withGroup, groups_enterGroup] at hg
    rcases List.mem_append.1 hg with hg | hg
    · obtain ⟨old, mem, rfl⟩ := List.mem_map.1 hg
      rw [Group.childGroups_listGroup, wf.childGroups_eq old mem, groupIdsIn_withGroup]
      simp
    · obtain rfl := List.mem_singleton.1 hg
      simp [groupIdsIn_withGroup, wf.groupIdsIn_eq_nil absent, notSelf]
  childNodes_eq := by
    have absent := groupId_absent fresh
    intro g hg
    simp only [Topology.withGroup, groups_enterGroup] at hg
    rcases List.mem_append.1 hg with hg | hg
    · obtain ⟨old, mem, rfl⟩ := List.mem_map.1 hg
      simpa [nodeIdsIn_withGroup] using wf.childNodes_eq old mem
    · obtain rfl := List.mem_singleton.1 hg
      simp [nodeIdsIn_withGroup, wf.nodeIdsIn_eq_nil absent]
  link_ends := by
    have grown : ∀ end' ∈ t.elementIds, end' ∈ (t.withGroup group).elementIds := by
      intro end' mem
      rw [elementIds_withGroup]
      exact List.mem_append_left _ mem
    simp only [Topology.withGroup, links_enterGroup]
    exact fun link mem => (wf.link_ends link mem).imp (grown _) (grown _)
  node_noNulls := by
    simpa [Topology.withGroup] using wf.node_noNulls
  group_noNulls := by
    simp only [Topology.withGroup, groups_enterGroup]
    intro g hg
    rcases List.mem_append.1 hg with hg | hg
    · obtain ⟨old, mem, rfl⟩ := List.mem_map.1 hg
      simpa using wf.group_noNulls old mem
    · obtain rfl := List.mem_singleton.1 hg
      exact Properties.noNulls_withoutNulls
  link_noNulls := by
    simpa [Topology.withGroup] using wf.link_noNulls

theorem withLink {link : Link} (fresh : link.id ∉ t.ids)
    (ends : link.source ∈ t.elementIds ∧ link.target ∈ t.elementIds) :
    (t.withLink link).WellFormed where
  ids_nodup := by
    have links : (t.withLink link).links.map (·.id) = t.links.map (·.id) ++ [link.id] := by
      simp [Topology.withLink]
    rw [Topology.ids, elementIds_withLink, links, ← List.append_assoc, List.nodup_append_comm,
      List.singleton_append, List.nodup_cons]
    exact ⟨fresh, wf.ids_nodup⟩
  parents_first := wf.parents_first
  node_group := wf.node_group
  childGroups_eq := wf.childGroups_eq
  childNodes_eq := wf.childNodes_eq
  link_ends := by
    intro l hl
    rcases List.mem_append.1 hl with hl | hl
    · exact wf.link_ends l hl
    · obtain rfl := List.mem_singleton.1 hl
      exact ends
  node_noNulls := wf.node_noNulls
  group_noNulls := wf.group_noNulls
  link_noNulls := by
    intro l hl
    rcases List.mem_append.1 hl with hl | hl
    · exact wf.link_noNulls l hl
    · obtain rfl := List.mem_singleton.1 hl
      exact Properties.noNulls_withoutNulls

theorem addNode {node : Node} (h : t.addNode node = .ok t') : t'.WellFormed := by
  obtain ⟨fresh, inside, rfl⟩ := addNode_eq_ok_iff.1 h
  exact wf.withNode fresh inside

theorem addGroup {group : Group} (h : t.addGroup group = .ok t') : t'.WellFormed := by
  obtain ⟨fresh, inside, rfl⟩ := addGroup_eq_ok_iff.1 h
  exact wf.withGroup fresh inside

theorem addLink {link : Link} (h : t.addLink link = .ok t') : t'.WellFormed := by
  obtain ⟨fresh, ends, rfl⟩ := addLink_eq_ok_iff.1 h
  exact wf.withLink fresh ends

end WellFormed

end Topology

end CloudCanvas
