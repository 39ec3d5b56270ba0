import CloudCanvas.Topology.Edit
import Mathlib.Data.List.Nodup

/-!
# Well-formed topologies

What every drawing is to satisfy, said on its lists: no id is used twice, the
groups stand behind the groups that contain them, the membership lists of a group
say the same as the elements themselves, links end somewhere, and no property is
without a value.

## Main definitions

* `Topology.ids`, `Topology.elementIds`: the ids in use, and those a link can end at.
* `Topology.WellFormed`: the invariant.

The other theorems of this file are what the invariant gives at once: an element is
found under its own id, and by nothing else.
-/

namespace CloudCanvas

/-- Every property has a value. -/
def Properties.NoNulls (properties : Properties) : Prop :=
  ∀ entry ∈ properties.entries, entry.2.isNull = false

namespace Topology

/-- The ids of the nodes and groups. -/
def elementIds (t : Topology) : List String :=
  t.nodes.map (·.id) ++ t.groups.map (·.id)

/-- The ids of the nodes, groups and links. -/
def ids (t : Topology) : List String :=
  t.elementIds ++ t.links.map (·.id)

/-- The ids of the groups that say they are directly inside a group. -/
def groupIdsIn (t : Topology) (id : String) : List String :=
  (t.groups.filter (fun group => group.parent == some id)).map (·.id)

/-- The ids of the nodes that say they are directly inside a group. -/
def nodeIdsIn (t : Topology) (id : String) : List String :=
  (t.nodes.filter (fun node => node.group == some id)).map (·.id)

/-- The group around each group stands strictly before it. -/
def ParentsFirst (groups : List Group) : Prop :=
  ∀ before group after parent, groups = before ++ group :: after →
    group.parent = some parent → ∃ outer ∈ before, outer.id = parent

/-- **The invariant of a drawing.** -/
structure WellFormed (t : Topology) : Prop where
  ids_nodup : t.ids.Nodup
  parents_first : ParentsFirst t.groups
  node_group : ∀ node ∈ t.nodes, ∀ parent, node.group = some parent →
    parent ∈ t.groups.map (·.id)
  childGroups_eq : ∀ group ∈ t.groups, group.childGroups = t.groupIdsIn group.id
  childNodes_eq : ∀ group ∈ t.groups, group.childNodes = t.nodeIdsIn group.id
  link_ends : ∀ link ∈ t.links, link.source ∈ t.elementIds ∧ link.target ∈ t.elementIds
  node_noNulls : ∀ node ∈ t.nodes, node.properties.NoNulls
  group_noNulls : ∀ group ∈ t.groups, group.properties.NoNulls
  link_noNulls : ∀ link ∈ t.links, link.properties.NoNulls

/-! ## Ids -/

variable {t : Topology} {id : String}

theorem mem_elementIds : id ∈ t.elementIds ↔
    (∃ node ∈ t.nodes, node.id = id) ∨ ∃ group ∈ t.groups, group.id = id := by
  simp [elementIds]

theorem mem_ids : id ∈ t.ids ↔ id ∈ t.elementIds ∨ ∃ link ∈ t.links, link.id = id := by
  simp [ids]

theorem mem_groupIdsIn {parent : String} : id ∈ t.groupIdsIn parent ↔
    ∃ group ∈ t.groups, group.parent = some parent ∧ group.id = id := by
  simp [groupIdsIn, and_assoc]

theorem mem_nodeIdsIn {parent : String} : id ∈ t.nodeIdsIn parent ↔
    ∃ node ∈ t.nodes, node.group = some parent ∧ node.id = id := by
  simp [nodeIdsIn, and_assoc]

/-! ## Look-ups -/

theorem isSome_node?_iff : (t.node? id).isSome ↔ ∃ node ∈ t.nodes, node.id = id := by
  simp [node?, List.find?_isSome]

theorem isSome_group?_iff : (t.group? id).isSome ↔ id ∈ t.groups.map (·.id) := by
  simp [group?, List.find?_isSome]

theorem isSome_link?_iff : (t.link? id).isSome ↔ ∃ link ∈ t.links, link.id = id := by
  simp [link?, List.find?_isSome]

theorem isSome_element?_iff : (t.element? id).isSome ↔ id ∈ t.elementIds := by
  rw [mem_elementIds, ← isSome_node?_iff, element?]
  cases t.node? id with
  | some node => simp
  | none => simp [isSome_group?_iff]

theorem uses_iff : t.uses id = true ↔ id ∈ t.ids := by
  rw [uses, Bool.or_eq_true, isSome_element?_iff, isSome_link?_iff, mem_ids]

theorem mem_of_group?_eq_some {group : Group} (h : t.group? id = some group) :
    group ∈ t.groups ∧ group.id = id :=
  ⟨List.mem_of_find?_eq_some h, by simpa using List.find?_some h⟩

theorem mem_of_node?_eq_some {node : Node} (h : t.node? id = some node) :
    node ∈ t.nodes ∧ node.id = id :=
  ⟨List.mem_of_find?_eq_some h, by simpa using List.find?_some h⟩

/-! ## Lists of which one place changes -/

section Rows

variable {α : Type} {key : α → String} {change : α → α} {xs before after : List α} {x : α}

/-- A change of what has an id leaves a row alone in which nothing has it. -/
theorem map_of_absent (others : ∀ y, key y ≠ id → change y = y)
    (absent : ∀ y ∈ xs, key y ≠ id) : xs.map change = xs :=
  (List.map_congr_left fun y mem => others y (absent y mem)).trans (List.map_id xs)

/-- In a row in which no id comes twice, a change of what has an id is a change in one place. -/
theorem map_of_split (others : ∀ y, key y ≠ key x → change y = y)
    (nodup : ((before ++ x :: after).map key).Nodup) :
    (before ++ x :: after).map change = before ++ change x :: after := by
  rw [List.map_append, List.map_cons, List.nodup_middle, List.nodup_cons, ← List.map_append]
    at nodup
  have absent : ∀ y ∈ before ++ after, key y ≠ key x := fun y mem eq =>
    nodup.1 (List.mem_map.2 ⟨y, mem, eq⟩)
  rw [List.map_append, List.map_cons,
    map_of_absent others fun y mem => absent y (List.mem_append_left _ mem),
    map_of_absent others fun y mem => absent y (List.mem_append_right _ mem)]

end Rows

/-! ## Lists of groups of which only the rest changes -/

section Relabel

variable {groups : List Group} {change : Group → Group}
  (sameId : ∀ group ∈ groups, (change group).id = group.id)
  (sameParent : ∀ group ∈ groups, (change group).parent = group.parent)

include sameId in
theorem map_id_map : (groups.map change).map (·.id) = groups.map (·.id) := by
  rw [List.map_map]
  exact List.map_congr_left sameId

include sameId sameParent

theorem filter_parent_map :
    ((groups.map change).filter (fun group => group.parent == some id)).map (·.id) =
      (groups.filter (fun group => group.parent == some id)).map (·.id) := by
  rw [List.filter_map, List.map_map]
  have same : groups.filter ((fun group => group.parent == some id) ∘ change) =
      groups.filter (fun group => group.parent == some id) :=
    List.filter_congr fun group mem => by rw [Function.comp_apply, sameParent group mem]
  rw [same]
  exact List.map_congr_left fun group mem => sameId group (List.mem_filter.1 mem).1

theorem parentsFirst_map (h : ParentsFirst groups) :
    ParentsFirst (groups.map change) := by
  intro before group after parent split inside
  obtain ⟨front, tail, rfl, rfl, hTail⟩ := List.map_eq_append_iff.1 split
  obtain ⟨group, tail, rfl, rfl, rfl⟩ := List.map_eq_cons_iff.1 hTail
  rw [sameParent group (by simp)] at inside
  obtain ⟨outer, mem, rfl⟩ := h _ _ _ _ rfl inside
  exact ⟨change outer, List.mem_map_of_mem mem, sameId outer (by simp [mem])⟩

end Relabel

theorem parentsFirst_concat {groups : List Group} {group : Group}
    (h : ParentsFirst groups)
    (inside : ∀ p, group.parent = some p → p ∈ groups.map (·.id)) :
    ParentsFirst (groups ++ [group]) := by
  intro before g after p split parent
  rcases List.append_eq_append_iff.1 split with ⟨between, rfl, last⟩ | ⟨between, rfl, rest⟩
  · cases between with
    | nil =>
        obtain ⟨rfl, -⟩ := List.cons.inj (by simpa using last)
        obtain ⟨outer, mem, eq⟩ := List.mem_map.1 (inside p parent)
        exact ⟨outer, by simpa using mem, eq⟩
    | cons _ _ => simp at last
  · cases between with
    | nil =>
        obtain ⟨rfl, -⟩ := List.cons.inj (by simpa using rest.symm)
        obtain ⟨outer, mem, eq⟩ := List.mem_map.1 (inside p parent)
        exact ⟨outer, by simpa using mem, eq⟩
    | cons first others =>
        obtain ⟨rfl, rfl⟩ := List.cons.inj rest
        exact h before g others p rfl parent

/-! ## What the invariant gives at once -/

/-- In a list without two equal keys an entry is found under its own key. -/
private theorem find?_key_eq_some {α : Type} {key : α → String} {xs : List α} {x : α}
    (nodup : (xs.map key).Nodup) (h : x ∈ xs) :
    xs.find? (fun y => key y == key x) = some x := by
  induction xs with
  | nil => simp at h
  | cons y ys ih =>
    rw [List.map_cons, List.nodup_cons] at nodup
    rcases List.mem_cons.1 h with rfl | h
    · simp
    · have ne : key y ≠ key x := fun eq => nodup.1 (eq ▸ List.mem_map_of_mem h)
      simpa [List.find?_cons, ne] using ih nodup.2 h

namespace WellFormed

variable (wf : t.WellFormed)
include wf

theorem nodeIds_nodup : (t.nodes.map (·.id)).Nodup :=
  (List.nodup_append.1 (List.nodup_append.1 wf.ids_nodup).1).1

theorem groupIds_nodup : (t.groups.map (·.id)).Nodup :=
  (List.nodup_append.1 (List.nodup_append.1 wf.ids_nodup).1).2.1

theorem linkIds_nodup : (t.links.map (·.id)).Nodup :=
  (List.nodup_append.1 wf.ids_nodup).2.1

/-- A node and a group have different ids. -/
theorem node_ne_group {node : Node} {group : Group} (hn : node ∈ t.nodes)
    (hg : group ∈ t.groups) : node.id ≠ group.id :=
  (List.nodup_append.1 (List.nodup_append.1 wf.ids_nodup).1).2.2 _
    (List.mem_map_of_mem hn) _ (List.mem_map_of_mem hg)

/-- The id of a link is not one that a link can end at. -/
theorem linkId_notMem_elementIds {link : Link} (h : link ∈ t.links) :
    link.id ∉ t.elementIds :=
  fun mem => (List.nodup_append.1 wf.ids_nodup).2.2 _ mem _ (List.mem_map_of_mem h) rfl

theorem node?_id {node : Node} (h : node ∈ t.nodes) : t.node? node.id = some node :=
  find?_key_eq_some wf.nodeIds_nodup h

theorem group?_id {group : Group} (h : group ∈ t.groups) : t.group? group.id = some group :=
  find?_key_eq_some wf.groupIds_nodup h

theorem link?_id {link : Link} (h : link ∈ t.links) : t.link? link.id = some link :=
  find?_key_eq_some wf.linkIds_nodup h

theorem element?_node {node : Node} (h : node ∈ t.nodes) :
    t.element? node.id = some (.node node) := by
  rw [element?, wf.node?_id h]

theorem element?_group {group : Group} (h : group ∈ t.groups) :
    t.element? group.id = some (.group group) := by
  have absent : t.node? group.id = none := by
    rw [← Option.not_isSome_iff_eq_none, isSome_node?_iff]
    rintro ⟨node, mem, eq⟩
    exact wf.node_ne_group mem h eq
  rw [element?, absent, wf.group?_id h]
  rfl

/-- Two groups with one id are one group. -/
theorem group_ext {g h : Group} (hg : g ∈ t.groups) (hh : h ∈ t.groups) (eq : g.id = h.id) :
    g = h := by
  have found := wf.group?_id hg
  rw [eq, wf.group?_id hh] at found
  exact (Option.some.inj found).symm

/-- Two nodes with one id are one node. -/
theorem node_ext {m n : Node} (hm : m ∈ t.nodes) (hn : n ∈ t.nodes) (eq : m.id = n.id) :
    m = n := by
  have found := wf.node?_id hm
  rw [eq, wf.node?_id hn] at found
  exact (Option.some.inj found).symm

/-- The group around a group is there. -/
theorem group_parent {group : Group} (h : group ∈ t.groups) {parent : String}
    (inside : group.parent = some parent) : ∃ outer ∈ t.groups, outer.id = parent := by
  obtain ⟨before, after, split⟩ := List.append_of_mem h
  obtain ⟨outer, mem, eq⟩ := wf.parents_first before group after parent split inside
  exact ⟨outer, split ▸ List.mem_append_left _ mem, eq⟩

/-- A subgroup is listed exactly by the group that it says it is in. -/
theorem mem_childGroups_iff {outer group : Group} (ho : outer ∈ t.groups)
    (hg : group ∈ t.groups) :
    group.id ∈ outer.childGroups ↔ group.parent = some outer.id := by
  rw [wf.childGroups_eq outer ho, mem_groupIdsIn]
  constructor
  · rintro ⟨inner, mem, inside, eq⟩
    rwa [wf.group_ext mem hg eq] at inside
  · exact fun inside => ⟨group, hg, inside, rfl⟩

/-- A node is listed exactly by the group that it says it is in. -/
theorem mem_childNodes_iff {outer : Group} {node : Node} (ho : outer ∈ t.groups)
    (hn : node ∈ t.nodes) : node.id ∈ outer.childNodes ↔ node.group = some outer.id := by
  rw [wf.childNodes_eq outer ho, mem_nodeIdsIn]
  constructor
  · rintro ⟨inner, mem, inside, eq⟩
    rwa [wf.node_ext mem hn eq] at inside
  · exact fun inside => ⟨node, hn, inside, rfl⟩

/-- A membership list names no group twice. -/
theorem childGroups_nodup {group : Group} (h : group ∈ t.groups) : group.childGroups.Nodup := by
  rw [wf.childGroups_eq group h]
  exact wf.groupIds_nodup.sublist (List.filter_sublist.map _)

/-- A membership list names no node twice. -/
theorem childNodes_nodup {group : Group} (h : group ∈ t.groups) : group.childNodes.Nodup := by
  rw [wf.childNodes_eq group h]
  exact wf.nodeIds_nodup.sublist (List.filter_sublist.map _)

end WellFormed

end Topology

end CloudCanvas
