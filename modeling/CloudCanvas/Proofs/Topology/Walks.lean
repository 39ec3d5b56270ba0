import CloudCanvas.Proofs.Topology.Ancestors
import CloudCanvas.Proofs.Topology.Reachable
import Mathlib.Computability.StateTransition
import Mathlib.Data.Finset.Lattice.Basic
import Mathlib.Data.List.Perm.Subperm

/-!
# Walks that do not look back

Containment is walked in three ways: from an element outwards by the groups that elements say
they are in, over a stack of ids that a group's members are put on, and by a recursion over
subgroups.  None of them keeps a list of what it has met.  In a drawing that edits have made
they end all the same, since the group around a group stands before it, and they agree: a
group is around an element exactly if the element goes with it and, for a group, if it stands
in its outline.

## Main definitions

* `Topology.climbTurn`, `Topology.gatherTurn`: one turn of the two loops.
* `Topology.descend`: the recursion, to a depth.
* `Topology.WalksAgree`: the walks end and agree.

The main statement is `Topology.walksAgree_of_reachable`.
-/

namespace CloudCanvas

namespace Topology

/-- One turn of the walk outwards: on from the group with an id to the one around it. -/
def climbTurn (t : Topology) :
    Option String × List Group → Option (Option String × List Group)
  | (none, _) => none
  | (some id, met) => (t.group? id).map (fun group => (group.parent, met ++ [group]))

/-- One turn of the walk over a stack: the topmost id is taken down and, if it is that of a group,
the ids of its subgroups are put on, the last of them on top. -/
def gatherTurn (t : Topology) :
    List String × Finset String → Option (List String × Finset String)
  | ([], _) => none
  | (id :: stack, gathered) =>
    match t.group? id with
    | none => some (stack, insert id gathered)
    | some group =>
      some (group.childGroups.reverse ++ stack, insert id (gathered ∪ group.childNodes.toFinset))

/-- A group and the groups inside it, each before what it contains, none if they are nested
deeper than a bound. -/
def descend (t : Topology) : ℕ → Group → Option (List Group)
  | 0, _ => none
  | depth + 1, group => do
    let inside ← (group.childGroups.filterMap t.group?).mapM (t.descend depth)
    return group :: inside.flatten

/-- **The walks end and agree.** -/
structure WalksAgree (t : Topology) : Prop where
  /-- The walk outwards ends with the groups around an element. -/
  climbs : ∀ id, (none, t.ancestorsOf id) ∈
    StateTransition.eval t.climbTurn ((t.element? id).bind Element.parent, [])
  /-- The walk over a stack ends with what goes with a group. -/
  gathers : ∀ group ∈ t.groups, ([], (t.contentIds group.id).toFinset) ∈
    StateTransition.eval t.gatherTurn ([group.id], ∅)
  /-- The recursion ends with the outline of a group, no deeper than there are groups. -/
  descends : ∀ group ∈ t.groups, ∀ depth, t.groups.length ≤ depth →
    t.descend depth group = some (t.outline group)
  ancestors_nodup : ∀ id, ((t.ancestorsOf id).map (·.id)).Nodup
  ancestors_length : ∀ id, (t.ancestorsOf id).length ≤ t.groups.length
  /-- A group is around what goes with it. -/
  removes : ∀ group ∈ t.groups, ∀ element ∈ t.elements, element ≠ .group group →
    ∃ left, t.removeGroup? group.id = some left ∧
      (group ∈ t.ancestorsOf element.id ↔ left.element? element.id = none)
  /-- A group is around the groups of its outline. -/
  outlines : ∀ group ∈ t.groups, ∀ inner ∈ t.groups, inner ≠ group →
    (group ∈ t.ancestorsOf inner.id ↔ inner ∈ t.outline group)
  /-- A group has the children that say they are directly inside it. -/
  children : ∀ group ∈ t.groups, ∀ element ∈ t.elements,
    (element ∈ t.childrenOf group.id ↔ element.parent = some group.id)

variable {t : Topology} {element : Element} {group outer : Group} {id : String}

namespace WellFormed

variable (wf : t.WellFormed)
include wf

/-! ## Outwards -/

/-- Of the groups around an element the outer ones stand before the inner ones. -/
theorem pairwise_ancestorsOf (mem : element ∈ t.elements) : (t.ancestorsOf element.id).Pairwise
    (fun inner outer => t.groups.idxOf outer < t.groups.idxOf inner) := by
  refine wf.element_induction (motive := fun element => (t.ancestorsOf element.id).Pairwise
    (fun inner outer => t.groups.idxOf outer < t.groups.idxOf inner)) ?_ ?_ mem
  · intro element mem top
    rw [wf.ancestorsOf_root mem top]
    exact .nil
  · intro element mem outer ho parent ih
    have ih : (t.ancestorsOf outer.id).Pairwise
        (fun inner outer => t.groups.idxOf outer < t.groups.idxOf inner) := ih
    rw [wf.ancestorsOf_cons mem ho parent]
    have known := group_mem_elements ho
    rcases wf.parent_cases known with top | ⟨around, hAround, parent⟩
    · have none : t.ancestorsOf outer.id = [] := wf.ancestorsOf_root known top
      simp [none]
    · have chain : t.ancestorsOf outer.id = around :: t.ancestorsOf around.id :=
        wf.ancestorsOf_cons known hAround parent
      have before := wf.idxOf_lt_of_parent hAround ho parent
      rw [chain] at ih ⊢
      refine List.pairwise_cons.2 ⟨List.forall_mem_cons.2 ⟨before, fun far mem => ?_⟩, ih⟩
      exact Nat.lt_trans ((List.pairwise_cons.1 ih).1 far mem) before

theorem nodup_ancestorsOf (id : String) : ((t.ancestorsOf id).map (·.id)).Nodup := by
  by_cases listed : id ∈ t.elementIds
  · obtain ⟨element, known, rfl⟩ := mem_elementIds_iff_element.1 listed
    refine List.pairwise_map.2 ((wf.pairwise_ancestorsOf known).imp_of_mem ?_)
    intro inner outer hi ho before same
    rw [wf.group_ext (wf.mem_groups_of_mem_ancestorsOf hi)
      (wf.mem_groups_of_mem_ancestorsOf ho) same] at before
    exact Nat.lt_irrefl _ before
  · simp [ancestorsOf_eq_nil listed]

theorem length_ancestorsOf_le (id : String) : (t.ancestorsOf id).length ≤ t.groups.length := by
  have nodup : (t.ancestorsOf id).Nodup := .of_map _ (wf.nodup_ancestorsOf id)
  exact (List.subperm_of_subset nodup fun _ => wf.mem_groups_of_mem_ancestorsOf).length_le

/-- The walk outwards ends with the groups around an element behind those it has met. -/
theorem reaches_climb (mem : element ∈ t.elements) (met : List Group) :
    StateTransition.Reaches t.climbTurn (element.parent, met)
      (none, met ++ t.ancestorsOf element.id) := by
  refine wf.element_induction (motive := fun element => ∀ met,
    StateTransition.Reaches t.climbTurn (element.parent, met)
      (none, met ++ t.ancestorsOf element.id)) ?_ ?_ mem met
  · intro element mem top met
    rw [wf.ancestorsOf_root mem top, top, List.append_nil]
    exact .refl
  · intro element mem outer ho parent ih met
    have turn : t.climbTurn (some outer.id, met) = some (outer.parent, met ++ [outer]) := by
      rw [climbTurn, wf.group?_id ho, Option.map_some]
    have rest : StateTransition.Reaches t.climbTurn (outer.parent, met ++ [outer])
        (none, (met ++ [outer]) ++ t.ancestorsOf outer.id) := ih (met ++ [outer])
    rw [wf.ancestorsOf_cons mem ho parent, parent, List.append_cons]
    exact .head turn rest

theorem mem_eval_climbTurn (id : String) : (none, t.ancestorsOf id) ∈
    StateTransition.eval t.climbTurn ((t.element? id).bind Element.parent, []) := by
  refine StateTransition.mem_eval.2 ⟨?_, rfl⟩
  cases found : t.element? id with
  | none =>
      simp only [ancestorsOf, found, Option.bind_none]
      exact .refl
  | some element =>
      obtain ⟨mem, rfl⟩ := wf.element?_eq_some_iff.1 found
      exact wf.reaches_climb mem []

/-! ## Over a stack -/

/-- The contents of a group are the group and the contents of its subgroups. -/
theorem mem_contents_iff_subgroups (hg : group ∈ t.groups) : outer ∈ t.contents group.id ↔
    outer = group ∨ ∃ inner ∈ t.subgroups group, outer ∈ t.contents inner.id := by
  simp only [mem_contents_iff]
  constructor
  · intro inside
    induction inside with
    | listed mem listed => exact .inl (wf.group_ext mem hg (List.mem_singleton.1 listed))
    | @child around other inside mem listed ih =>
        rcases ih with rfl | ⟨inner, sub, inside⟩
        · have parent := (wf.mem_childGroups_iff hg mem).1 listed
          exact .inr ⟨other, mem_subgroups.2 ⟨mem, parent⟩, .listed mem List.mem_cons_self⟩
        · exact .inr ⟨inner, sub, .child inside mem listed⟩
  · rintro (rfl | ⟨inner, sub, inside⟩)
    · exact .listed hg List.mem_cons_self
    · obtain ⟨hi, parent⟩ := mem_subgroups.1 sub
      induction inside with
      | listed mem listed =>
          rw [wf.group_ext mem hi (List.mem_singleton.1 listed)]
          exact .child (.listed hg List.mem_cons_self) hi ((wf.mem_childGroups_iff hg hi).2 parent)
      | child _ mem listed ih => exact .child ih mem listed

/-- What goes with a group is the group, its nodes and what goes with its subgroups. -/
theorem mem_contentIds_iff (hg : group ∈ t.groups) : id ∈ t.contentIds group.id ↔
    id = group.id ∨ id ∈ group.childNodes ∨
      ∃ inner ∈ t.subgroups group, id ∈ t.contentIds inner.id := by
  simp only [contentIds, List.mem_flatMap, wf.mem_contents_iff_subgroups hg, List.mem_cons]
  grind

omit wf in
/-- If the walk comes back from each group of a row with what it is to gather there, it comes
back from the row. -/
theorem reaches_gather_row (row : List Group) {gain : Group → Finset String}
    (each : ∀ group ∈ row, ∀ stack gathered, StateTransition.Reaches t.gatherTurn
      (group.id :: stack, gathered) (stack, gathered ∪ gain group))
    (stack : List String) (gathered : Finset String) : ∃ more : Finset String,
    StateTransition.Reaches t.gatherTurn (row.map (·.id) ++ stack, gathered)
        (stack, gathered ∪ more) ∧
      ∀ id, id ∈ more ↔ ∃ group ∈ row, id ∈ gain group := by
  induction row generalizing gathered with
  | nil =>
      refine ⟨∅, ?_, by simp⟩
      rw [Finset.union_empty]
      exact .refl
  | cons group row ih =>
      obtain ⟨first, others⟩ := List.forall_mem_cons.1 each
      obtain ⟨more, rest, mem⟩ := ih others (gathered ∪ gain group)
      refine ⟨gain group ∪ more, ?_, by simp [mem]⟩
      rw [← Finset.union_assoc]
      exact (first _ gathered).trans rest

/-- The walk comes back from a group with what goes with it. -/
theorem reaches_gather (hg : group ∈ t.groups) (stack : List String) (gathered : Finset String) :
    StateTransition.Reaches t.gatherTurn (group.id :: stack, gathered)
      (stack, gathered ∪ (t.contentIds group.id).toFinset) := by
  refine wf.inward_induction (motive := fun group => ∀ stack gathered,
    StateTransition.Reaches t.gatherTurn (group.id :: stack, gathered)
      (stack, gathered ∪ (t.contentIds group.id).toFinset)) ?_ hg stack gathered
  intro group hg inner stack gathered
  let listed := insert group.id (gathered ∪ group.childNodes.toFinset)
  have turn : t.gatherTurn (group.id :: stack, gathered) =
      some ((t.subgroups group).reverse.map (·.id) ++ stack, listed) := by
    rw [List.map_reverse, map_id_subgroups, ← wf.childGroups_eq group hg]
    simp [gatherTurn, wf.group?_id hg, listed]
  obtain ⟨more, row, mem⟩ := reaches_gather_row (t.subgroups group).reverse
    (fun other sub => inner other (List.mem_reverse.1 sub)) stack listed
  have all : gathered ∪ (t.contentIds group.id).toFinset = listed ∪ more := by
    ext id
    simp only [Finset.mem_union, List.mem_toFinset, wf.mem_contentIds_iff hg, listed, mem,
      Finset.mem_insert, List.mem_reverse]
    grind
  rw [all]
  exact .head turn row

theorem mem_eval_gatherTurn (hg : group ∈ t.groups) : ([], (t.contentIds group.id).toFinset) ∈
    StateTransition.eval t.gatherTurn ([group.id], ∅) :=
  StateTransition.mem_eval.2 ⟨by simpa using wf.reaches_gather hg [] ∅, rfl⟩

/-! ## By recursion -/

/-- A membership list leads to the subgroups. -/
theorem filterMap_childGroups (hg : group ∈ t.groups) :
    group.childGroups.filterMap t.group? = t.subgroups group := by
  have found : ∀ inner ∈ t.subgroups group, (t.group? ∘ (·.id)) inner = some inner :=
    fun inner sub => wf.group?_id (mem_subgroups.1 sub).1
  rw [wf.childGroups_eq group hg, ← map_id_subgroups, List.filterMap_map,
    List.filterMap_congr found, List.filterMap_some]

/-- The recursion ends with the outline of a group, no deeper than groups stand behind it. -/
theorem descend_eq (hg : group ∈ t.groups) {depth : ℕ}
    (room : t.groups.length ≤ depth + t.groups.idxOf group) :
    t.descend depth group = some (t.outline group) := by
  induction depth generalizing group with
  | zero =>
      have bound := List.idxOf_lt_length_of_mem hg
      omega
  | succ depth ih =>
      have each : List.Forall₂ (fun inner order => t.descend depth inner = some order)
          (t.subgroups group) ((t.subgroups group).map t.outline) := by
        rw [List.forall₂_map_right_iff, List.forall₂_same]
        intro inner sub
        obtain ⟨hi, parent⟩ := mem_subgroups.1 sub
        have before := wf.idxOf_lt_of_parent hg hi parent
        exact ih hi (by omega)
      rw [descend, wf.filterMap_childGroups hg, mapM_eq_some_iff.2 each, wf.outline_eq_cons hg]
      rfl

/-! ## Where they agree -/

/-- **A group takes with it exactly what it is around.** -/
theorem exists_removeGroup?_iff (hg : group ∈ t.groups) (mem : element ∈ t.elements)
    (ne : element ≠ .group group) : ∃ left, t.removeGroup? group.id = some left ∧
      (group ∈ t.ancestorsOf element.id ↔ left.element? element.id = none) := by
  refine ⟨_, wf.removeGroup?_eq_prune hg, ?_⟩
  have other : element.id ≠ group.id := by
    intro same
    have found := wf.element?_eq_some_iff.2 ⟨mem, rfl⟩
    rw [same, wf.element?_group hg] at found
    exact ne (Option.some.inj found).symm
  have listed : element.id ∈ t.elementIds := mem_elementIds_iff_element.2 ⟨element, mem, rfl⟩
  rw [← Option.not_isSome_iff_eq_none, isSome_element?_iff, elementIds_prune, List.mem_filter]
  simp [listed, wf.mem_contentIds_iff_ancestor hg mem, other]

/-- **The outline of a group has the groups that it is around.** -/
theorem mem_ancestorsOf_iff_mem_outline {inner : Group} (hg : group ∈ t.groups)
    (hi : inner ∈ t.groups) (ne : inner ≠ group) :
    group ∈ t.ancestorsOf inner.id ↔ inner ∈ t.outline group := by
  have other : inner.id ≠ group.id := fun same => ne (wf.group_ext hi hg same)
  have contained : inner.id ∈ t.contentIds group.id ↔
      inner.id = group.id ∨ group ∈ t.ancestorsOf inner.id :=
    wf.mem_contentIds_iff_ancestor hg (group_mem_elements hi)
  rw [outline, mem_outlineFrom_iff wf.groupIds_nodup, ← mem_contents_iff,
    ← wf.group_mem_contentIds_iff hi, contained, or_iff_right other]

/-- **The children of a group are what says it is directly inside it.** -/
theorem mem_childrenOf_iff (hg : group ∈ t.groups) (mem : element ∈ t.elements) :
    element ∈ t.childrenOf group.id ↔ element.parent = some group.id := by
  simp only [childrenOf, wf.group?_id hg, List.mem_append, List.mem_filterMap,
    Option.map_eq_some_iff]
  rcases mem_elements.1 mem with ⟨inner, hi, rfl⟩ | ⟨node, hn, rfl⟩
  · rw [Element.parent, ← wf.mem_childGroups_iff hg hi]
    constructor
    · rintro (⟨child, listed, found, look, same⟩ | ⟨_, _, _, _, same⟩)
      · cases same
        obtain ⟨-, rfl⟩ := mem_of_group?_eq_some look
        exact listed
      · cases same
    · exact fun listed => .inl ⟨inner.id, listed, inner, wf.group?_id hi, rfl⟩
  · rw [Element.parent, ← wf.mem_childNodes_iff hg hn]
    constructor
    · rintro (⟨_, _, _, _, same⟩ | ⟨child, listed, found, look, same⟩)
      · cases same
      · cases same
        obtain ⟨-, rfl⟩ := mem_of_node?_eq_some look
        exact listed
    · exact fun listed => .inr ⟨node.id, listed, node, wf.node?_id hn, rfl⟩

end WellFormed

/-- **In whatever edits have made, the walks end and agree**, although none of them looks back. -/
theorem walksAgree_of_reachable (reachable : t.Reachable) : t.WalksAgree where
  climbs := reachable.wellFormed.mem_eval_climbTurn
  gathers _ hg := reachable.wellFormed.mem_eval_gatherTurn hg
  descends _ hg depth room :=
    reachable.wellFormed.descend_eq hg (Nat.le_trans room (Nat.le_add_right depth _))
  ancestors_nodup := reachable.wellFormed.nodup_ancestorsOf
  ancestors_length := reachable.wellFormed.length_ancestorsOf_le
  removes _ hg _ mem ne := reachable.wellFormed.exists_removeGroup?_iff hg mem ne
  outlines _ hg _ hi ne := reachable.wellFormed.mem_ancestorsOf_iff_mem_outline hg hi ne
  children _ hg _ mem := reachable.wellFormed.mem_childrenOf_iff hg mem

/-- A network has two subnets, of which the first has a zone with a machine in it. -/
theorem walksAgree_of_reachable_nested :
    let group (id : String) (parent : Option String) : Group :=
      ⟨⟨id, "group", ∅, parent, none⟩, [], []⟩
    let t := run ∅ [.addGroup (group "network" none), .addGroup (group "first" (some "network")),
      .addGroup (group "second" (some "network")), .addGroup (group "zone" (some "first")),
      .addNode ⟨"machine", "text-note", ∅, some "zone", none⟩]
    t.Reachable ∧ t.WalksAgree ∧
      (t.ancestorsOf "machine").map (·.id) = ["zone", "first", "network"] ∧
      t.contentIds "first" = ["first", "zone", "machine"] := by
  intro group t
  have reachable : t.Reachable := ⟨_, rfl⟩
  refine ⟨reachable, walksAgree_of_reachable reachable, ?_, ?_⟩
  · decide +kernel
  · decide +kernel

end Topology

end CloudCanvas
