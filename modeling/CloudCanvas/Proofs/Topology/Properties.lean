import CloudCanvas.Proofs.Topology.Change
import CloudCanvas.Proofs.Topology.WellFormed

/-!
# Changed properties

A change of properties touches nothing else, so it keeps a drawing well-formed if it
leaves no property without a value.

## Main definitions

* `Node.revise`, `Group.revise`, `Link.revise`: the change of one element.
-/

namespace CloudCanvas

namespace Properties

variable {properties : Properties}

theorem NoNulls.erase (h : properties.NoNulls) (name : String) :
    NoNulls (Dict.erase properties name) :=
  fun entry mem => h entry (List.mem_filter.1 mem).1

theorem NoNulls.set (h : properties.NoNulls) (name : String) (value : Value) :
    (properties.set name value).NoNulls := by
  rw [Properties.set]
  split
  · exact h.erase name
  · rename_i some
    intro entry mem
    rcases Dict.mem_insertSorted mem with rfl | mem
    · simpa using some
    · exact h entry mem

end Properties

namespace Node

/-- A node with its properties changed, if it has the id. -/
def revise (id : String) (change : Properties → Properties) (node : Node) : Node :=
  if node.id = id then { node with properties := change node.properties } else node

variable (id : String) (change : Properties → Properties) (node : Node)

@[simp] theorem id_revise : (node.revise id change).id = node.id := by
  rw [revise]; split <;> rfl

@[simp] theorem group_revise : (node.revise id change).group = node.group := by
  rw [revise]; split <;> rfl

theorem properties_revise : (node.revise id change).properties =
    if node.id = id then change node.properties else node.properties := by
  rw [revise]; split <;> rfl

end Node

namespace Group

/-- A group with its properties changed, if it has the id. -/
def revise (id : String) (change : Properties → Properties) (group : Group) : Group :=
  if group.id = id then { group with properties := change group.properties } else group

variable (id : String) (change : Properties → Properties) (group : Group)

@[simp] theorem id_revise : (group.revise id change).id = group.id := by
  rw [revise]; split <;> rfl

@[simp] theorem parent_revise : (group.revise id change).parent = group.parent := by
  rw [revise]; split <;> rfl

@[simp] theorem childGroups_revise :
    (group.revise id change).childGroups = group.childGroups := by
  rw [revise]; split <;> rfl

@[simp] theorem childNodes_revise : (group.revise id change).childNodes = group.childNodes := by
  rw [revise]; split <;> rfl

theorem properties_revise : (group.revise id change).properties =
    if group.id = id then change group.properties else group.properties := by
  rw [revise]; split <;> rfl

end Group

namespace Link

/-- A link with its properties changed, if it has the id. -/
def revise (id : String) (change : Properties → Properties) (link : Link) : Link :=
  if link.id = id then { link with properties := change link.properties } else link

variable (id : String) (change : Properties → Properties) (link : Link)

@[simp] theorem id_revise : (link.revise id change).id = link.id := by
  rw [revise]; split <;> rfl

@[simp] theorem source_revise : (link.revise id change).source = link.source := by
  rw [revise]; split <;> rfl

@[simp] theorem target_revise : (link.revise id change).target = link.target := by
  rw [revise]; split <;> rfl

theorem properties_revise : (link.revise id change).properties =
    if link.id = id then change link.properties else link.properties := by
  rw [revise]; split <;> rfl

end Link

/-- A choice between properties that all have a value. -/
private theorem Properties.NoNulls.ite {c : Prop} [Decidable c] {old new : Properties}
    (hNew : new.NoNulls) (hOld : old.NoNulls) : (if c then new else old : Properties).NoNulls := by
  split
  · exact hNew
  · exact hOld

namespace Topology

variable {t t' : Topology} {id : String}

theorem nodes_updateProperties {change : Properties → Properties} :
    (t.updateProperties id change).nodes = t.nodes.map (Node.revise id change) := rfl

theorem groups_updateProperties {change : Properties → Properties} :
    (t.updateProperties id change).groups = t.groups.map (Group.revise id change) := rfl

theorem tried_properties : t.tried (Change.properties id) =
    match t.properties? id with
    | some properties => .ok (properties, t)
    | none => .error (.unknownElement id) := by
  rw [tried, Change.properties, after_get_bind]
  cases t.properties? id <;> rfl

/-- A property is set if there is something with the id. -/
theorem setProperty_eq (t : Topology) (id name : String) (value : Value) :
    t.setProperty id name value =
      match t.properties? id with
      | none => .error (.unknownElement id)
      | some _ => .ok (t.updateProperties id (·.set name value)) := by
  rw [setProperty, Change.setProperty, tried_bind, tried_properties]
  cases t.properties? id <;> rfl

theorem removeProperty_eq (t : Topology) (id name : String) :
    t.removeProperty id name =
      match t.properties? id with
      | none => .error (.unknownElement id)
      | some properties =>
        .ok (properties.contains name, t.updateProperties id (·.erase name)) := by
  rw [removeProperty, Change.removeProperty, tried_bind, tried_properties]
  cases t.properties? id <;> rfl

namespace WellFormed

variable (wf : t.WellFormed)
include wf

/-- A drawing of which no element and no link changes its id or its place stays well-formed if
no property is left without a value. -/
theorem map {node' : Node → Node} {group' : Group → Group} {link' : Link → Link}
    (nodeId : ∀ node, (node' node).id = node.id)
    (nodeGroup : ∀ node, (node' node).group = node.group)
    (groupId : ∀ group, (group' group).id = group.id)
    (groupParent : ∀ group, (group' group).parent = group.parent)
    (childGroups : ∀ group, (group' group).childGroups = group.childGroups)
    (childNodes : ∀ group, (group' group).childNodes = group.childNodes)
    (linkId : ∀ link, (link' link).id = link.id)
    (linkEnds : ∀ link, (link' link).source = link.source ∧ (link' link).target = link.target)
    (nodeValues : ∀ node ∈ t.nodes, (node' node).properties.NoNulls)
    (groupValues : ∀ group ∈ t.groups, (group' group).properties.NoNulls)
    (linkValues : ∀ link ∈ t.links, (link' link).properties.NoNulls) :
    WellFormed ⟨t.nodes.map node', t.groups.map group', t.links.map link'⟩ where
  ids_nodup := by
    simpa [Topology.ids, elementIds, Function.comp_def, nodeId, groupId, linkId] using wf.ids_nodup
  parents_first :=
    parentsFirst_map (fun group _ => groupId group) (fun group _ => groupParent group)
      wf.parents_first
  node_group := by
    rw [map_id_map fun group _ => groupId group]
    intro n hn p eq
    obtain ⟨old, mem, rfl⟩ := List.mem_map.1 hn
    exact wf.node_group old mem p (by rw [← nodeGroup, eq])
  childGroups_eq := by
    intro group hGroup
    obtain ⟨old, mem, rfl⟩ := List.mem_map.1 hGroup
    rw [groupIdsIn, filter_parent_map (fun group _ => groupId group) fun group _ =>
      groupParent group, childGroups, groupId]
    exact wf.childGroups_eq old mem
  childNodes_eq := by
    intro group hGroup
    obtain ⟨old, mem, rfl⟩ := List.mem_map.1 hGroup
    rw [childNodes, wf.childNodes_eq old mem]
    simp [nodeIdsIn, List.filter_map, Function.comp_def, nodeId, nodeGroup, groupId]
  link_ends := by
    intro link hLink
    obtain ⟨old, mem, rfl⟩ := List.mem_map.1 hLink
    simpa [elementIds, Function.comp_def, nodeId, groupId, linkEnds] using wf.link_ends old mem
  node_noNulls := List.forall_mem_map.2 nodeValues
  group_noNulls := List.forall_mem_map.2 groupValues
  link_noNulls := List.forall_mem_map.2 linkValues

theorem updateProperties {change : Properties → Properties}
    (keeps : ∀ properties : Properties, properties.NoNulls → (change properties).NoNulls) :
    (t.updateProperties id change).WellFormed := by
  change WellFormed ⟨t.nodes.map (Node.revise id change), t.groups.map (Group.revise id change),
    t.links.map (Link.revise id change)⟩
  refine wf.map (by simp) (by simp) (by simp) (by simp) (by simp) (by simp) (by simp) (by simp)
    ?_ ?_ ?_
  · intro node mem
    have values := wf.node_noNulls node mem
    exact Node.properties_revise id change node ▸ (keeps _ values).ite values
  · intro group mem
    have values := wf.group_noNulls group mem
    exact Group.properties_revise id change group ▸ (keeps _ values).ite values
  · intro link mem
    have values := wf.link_noNulls link mem
    exact Link.properties_revise id change link ▸ (keeps _ values).ite values

theorem setProperty {name : String} {value : Value}
    (h : t.setProperty id name value = .ok t') : t'.WellFormed := by
  rw [setProperty_eq] at h
  split at h
  · cases h
  · cases h
    exact wf.updateProperties fun _ noNulls => noNulls.set name value

theorem removeProperty {name : String} {any : Bool}
    (h : t.removeProperty id name = .ok (any, t')) : t'.WellFormed := by
  rw [removeProperty_eq] at h
  split at h
  · cases h
  · cases h
    exact wf.updateProperties fun _ noNulls => noNulls.erase name

end WellFormed

end Topology

end CloudCanvas
