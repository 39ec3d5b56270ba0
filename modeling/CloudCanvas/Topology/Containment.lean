import CloudCanvas.Topology.Basic

/-!
# Containment

Three walks over the groups of a topology: from an element outwards, over all
that a group contains level by level, and over a group and its subgroups in the
order of an outline.  Each walk takes a group from the groups not yet seen, so it
ends on every topology; where containment is a forest no group would be met
twice anyway.

## Main definitions

* `Topology.ancestorsOf`: the groups around an element, innermost first.
* `Topology.contents`: the groups inside a group, the group itself included.
* `Topology.outline`: a group and its subgroups, each before what it contains.
-/

namespace CloudCanvas

/-- The groups without the one with an id. -/
def withoutGroup (groups : List Group) (id : String) : List Group :=
  groups.eraseP (·.id == id)

/-- The group with an id, if it is among some groups. -/
def findGroup? (groups : List Group) (id : String) : Option Group :=
  groups.find? (·.id == id)

theorem length_withoutGroup {groups : List Group} {id : String} {group : Group}
    (h : findGroup? groups id = some group) :
    (withoutGroup groups id).length < groups.length := by
  simp only [findGroup?] at h
  have mem := List.mem_of_find?_eq_some h
  have pos := List.length_pos_of_mem mem
  have len := List.length_eraseP_of_mem mem (List.find?_some h)
  simp only [withoutGroup]
  omega

/-- The groups whose ids are listed. -/
def groupsIn (ids : List String) (groups : List Group) : List Group :=
  groups.filter (fun group => ids.contains group.id)

/-- The groups whose ids are not listed. -/
def groupsBeyond (ids : List String) (groups : List Group) : List Group :=
  groups.filter (fun group => !ids.contains group.id)

theorem length_groupsBeyond {ids : List String} {groups : List Group} {first : Group}
    {others : List Group} (h : groupsIn ids groups = first :: others) :
    (groupsBeyond ids groups).length < groups.length := by
  have mem : first ∈ groupsIn ids groups := h ▸ List.mem_cons_self
  have mem := List.mem_filter.1 mem
  exact List.length_filter_lt_length_iff_exists.2 ⟨first, mem.1, by simpa using mem.2⟩

namespace Topology

/-- The chain of groups outwards from a group's id, each taken from the groups
not yet seen. -/
def climb (unseen : List Group) (id : String) : List Group :=
  match _h : findGroup? unseen id with
  | none => []
  | some group =>
    match group.parent with
    | none => [group]
    | some parent => group :: climb (withoutGroup unseen id) parent
termination_by unseen.length
decreasing_by exact length_withoutGroup _h

/-- The groups around an element, innermost first. -/
def ancestorsOf (t : Topology) (id : String) : List Group :=
  match (t.element? id).bind Element.parent with
  | some parent => climb t.groups parent
  | none => []

/-- The groups with the given ids and all groups inside them, level by level. -/
def contentsFrom (unseen : List Group) (ids : List String) : List Group :=
  match _h : groupsIn ids unseen with
  | [] => []
  | first :: others =>
    first :: others ++ contentsFrom (groupsBeyond ids unseen)
      ((first :: others).flatMap (·.childGroups))
termination_by unseen.length
decreasing_by exact length_groupsBeyond _h

/-- A group and all groups inside it. -/
def contents (t : Topology) (id : String) : List Group :=
  contentsFrom t.groups [id]

/-- The groups with the given ids, each followed by what is inside it, in the
order of an outline. -/
def outlineFrom (unseen : List Group) (ids : List String) : List Group :=
  match ids with
  | [] => []
  | id :: later =>
    match _h : findGroup? unseen id with
    | none => outlineFrom unseen later
    | some group => group :: outlineFrom (withoutGroup unseen id) (group.childGroups ++ later)
termination_by (unseen.length, ids.length)
decreasing_by
  · exact Prod.Lex.right _ (by simp)
  · exact Prod.Lex.left _ _ (length_withoutGroup _h)

/-- A group and the groups inside it, each before what it contains, siblings in
the order in which they came. -/
def outline (t : Topology) (group : Group) : List Group :=
  outlineFrom t.groups [group.id]

end Topology

end CloudCanvas
