import CloudCanvas.Proofs.Topology.Containment
import Mathlib.Data.List.Count
import Mathlib.Data.List.Perm.Basic

/-!
# The outlines are a pre-order

In a pre-order every group stands directly before the pre-order of what it contains, and
siblings stand in the order in which they came.  The pre-order of the groups that nothing
contains has every group of a well-formed drawing once, and it is what the outlines of
these groups are, one behind the other.

## Main definitions

* `Topology.subgroups`: the groups that say they are directly inside a group.
* `Topology.PreOrder`: a row of groups with all that they contain, in pre-order.

The main statements are `WellFormed.preOrder_outlines`, `PreOrder.perm` and
`WellFormed.outline_eq_cons`.
-/

namespace CloudCanvas

namespace Topology

/-- The groups that say they are directly inside a group, in the order in which they
came. -/
def subgroups (t : Topology) (group : Group) : List Group :=
  t.groups.filter (·.parent == some group.id)

/-- A row of groups, each followed by what it contains, in pre-order. -/
inductive PreOrder (t : Topology) : List Group → List Group → Prop
  | nil : PreOrder t [] []
  | cons {group : Group} {siblings inside behind : List Group}
      (inner : PreOrder t (t.subgroups group) inside) (outer : PreOrder t siblings behind) :
      PreOrder t (group :: siblings) (group :: (inside ++ behind))

variable {t : Topology} {row order : List Group}

theorem mem_subgroups {outer group : Group} :
    group ∈ t.subgroups outer ↔ group ∈ t.groups ∧ group.parent = some outer.id := by
  simp [subgroups]

theorem map_id_subgroups (outer : Group) :
    (t.subgroups outer).map (·.id) = t.groupIdsIn outer.id := rfl

namespace PreOrder

theorem append {row' order' : List Group} (h : t.PreOrder row order)
    (h' : t.PreOrder row' order') : t.PreOrder (row ++ row') (order ++ order') := by
  induction h with
  | nil => exact h'
  | cons inner outer _ ih =>
      simpa using PreOrder.cons inner ih

/-- There is one pre-order of a row. -/
theorem unique {order' : List Group} (h : t.PreOrder row order) (h' : t.PreOrder row order') :
    order = order' := by
  induction h generalizing order' with
  | nil =>
      cases h'
      rfl
  | cons _ _ ihInner ihOuter =>
      cases h' with
      | cons inner outer => rw [ihInner inner, ihOuter outer]

/-- Groups of which each can be followed by what it contains can be put in pre-order. -/
theorem exists_of_forall (h : ∀ group ∈ row, ∃ inside, t.PreOrder (t.subgroups group) inside) :
    ∃ order, t.PreOrder row order := by
  induction row with
  | nil => exact ⟨[], .nil⟩
  | cons group row ih =>
      obtain ⟨first, others⟩ := List.forall_mem_cons.1 h
      obtain ⟨inside, hInside⟩ := first
      obtain ⟨behind, hBehind⟩ := ih others
      exact ⟨_, .cons hInside hBehind⟩

/-- A pre-order meets groups of the drawing only. -/
theorem subset (h : t.PreOrder row order) (known : ∀ group ∈ row, group ∈ t.groups) :
    ∀ group ∈ order, group ∈ t.groups := by
  induction h with
  | nil => simp
  | cons inner outer ihInner ihOuter =>
      intro group mem
      rcases List.mem_cons.1 mem with rfl | mem
      · exact known _ List.mem_cons_self
      · rcases List.mem_append.1 mem with mem | mem
        · exact ihInner (fun _ h => (mem_subgroups.1 h).1) group mem
        · exact ihOuter (fun _ h => known _ (List.mem_cons_of_mem _ h)) group mem

/-- In a pre-order what a group contains stands directly behind it. -/
theorem exists_infix_of_mem (h : t.PreOrder row order) {group : Group} (mem : group ∈ order) :
    ∃ inside, t.PreOrder (t.subgroups group) inside ∧ (group :: inside) <:+: order := by
  induction h with
  | nil => cases mem
  | @cons first siblings inside behind inner outer ihInner ihOuter =>
      rcases List.mem_cons.1 mem with rfl | mem
      · exact ⟨inside, inner, [], behind, by simp⟩
      · rcases List.mem_append.1 mem with mem | mem
        · obtain ⟨found, pre, part⟩ := ihInner mem
          exact ⟨found, pre, part.trans ⟨[first], behind, by simp⟩⟩
        · obtain ⟨found, pre, part⟩ := ihOuter mem
          exact ⟨found, pre, part.trans ⟨first :: inside, [], by simp⟩⟩

end PreOrder

namespace WellFormed

variable (wf : t.WellFormed)
include wf

/-! ## There is a pre-order -/

/-- The group around a group stands before it. -/
theorem idxOf_lt_of_parent {outer group : Group} (ho : outer ∈ t.groups) (hg : group ∈ t.groups)
    (inside : group.parent = some outer.id) : t.groups.idxOf outer < t.groups.idxOf group := by
  obtain ⟨before, after, split⟩ := List.append_of_mem hg
  obtain ⟨found, mem, eq⟩ := wf.parents_first before group after outer.id split inside
  obtain rfl := wf.group_ext (split ▸ List.mem_append_left _ mem) ho eq
  have nodup : (before ++ group :: after).Nodup := split ▸ .of_map _ wf.groupIds_nodup
  have beyond : group ∉ before := fun twice =>
    (List.nodup_append.1 nodup).2.2 _ twice _ List.mem_cons_self rfl
  rw [split, List.idxOf_append_of_mem mem, List.idxOf_append_of_notMem beyond,
    List.idxOf_cons_self, Nat.add_zero]
  exact List.idxOf_lt_length_of_mem mem

/-- **Induction from the inside out**: what holds of a group if it holds of its subgroups holds of
every group. -/
theorem inward_induction {motive : Group → Prop}
    (step : ∀ group ∈ t.groups, (∀ inner ∈ t.subgroups group, motive inner) → motive group)
    {group : Group} (hg : group ∈ t.groups) : motive group := by
  -- the induction is on the room behind the group: what it contains stands there
  induction hn : t.groups.length - t.groups.idxOf group using Nat.strongRecOn
    generalizing group with
  | ind n ih =>
      refine step group hg fun inner mem => ?_
      obtain ⟨mem, parent⟩ := mem_subgroups.1 mem
      have before := wf.idxOf_lt_of_parent hg mem parent
      have bound := List.idxOf_lt_length_of_mem mem
      exact ih (t.groups.length - t.groups.idxOf inner) (by omega) mem rfl

theorem exists_preOrder (known : ∀ group ∈ row, group ∈ t.groups) :
    ∃ order, t.PreOrder row order :=
  PreOrder.exists_of_forall fun group mem =>
    wf.inward_induction (fun _ _ => PreOrder.exists_of_forall) (known group mem)

/-! ## It has every group once -/

private theorem count_groupIdsIn {group : Group} (hg : group ∈ t.groups) (outer : String) :
    (t.groupIdsIn outer).count group.id = if group.parent = some outer then 1 else 0 := by
  have nodup : (t.groupIdsIn outer).Nodup :=
    wf.groupIds_nodup.sublist (List.filter_sublist.map _)
  have listed : group.id ∈ t.groupIdsIn outer ↔ group.parent = some outer := by
    rw [mem_groupIdsIn]
    constructor
    · intro ⟨inner, mem, inside, eq⟩
      rwa [wf.group_ext mem hg eq] at inside
    · exact fun inside => ⟨group, hg, inside, rfl⟩
  by_cases inside : group.parent = some outer
  · rw [if_pos inside, List.count_eq_one_of_mem nodup (listed.2 inside)]
  · rw [if_neg inside, List.count_eq_zero_of_not_mem (mt listed.1 inside)]

/-- A group is met as often as the row names it, and once more each time the group around
it is met. -/
private theorem count_preOrder {group : Group} (hg : group ∈ t.groups)
    (h : t.PreOrder row order) :
    (order.map (·.id)).count group.id = (row.map (·.id)).count group.id +
      match group.parent with
      | none => 0
      | some outer => (order.map (·.id)).count outer := by
  induction h with
  | nil => cases group.parent <;> simp
  | @cons first siblings inside behind inner outer ihInner ihOuter =>
      rw [map_id_subgroups, wf.count_groupIdsIn hg] at ihInner
      simp only [List.map_cons, List.map_append, List.count_cons, List.count_append, ihInner,
        ihOuter]
      cases group.parent with
      | none => simp
      | some around =>
          simp only [Option.some_inj, beq_iff_eq, eq_comm (a := around)]
          omega

theorem count_preOrder_roots {group : Group} (hg : group ∈ t.groups)
    (h : t.PreOrder t.topLevelGroups order) : (order.map (·.id)).count group.id = 1 := by
  -- the induction is on the place in the list: the group around stands before
  induction hn : t.groups.idxOf group using Nat.strongRecOn generalizing group with
  | ind n ih =>
      have nodup : (t.topLevelGroups.map (·.id)).Nodup :=
        wf.groupIds_nodup.sublist (List.filter_sublist.map _)
      rw [wf.count_preOrder hg h]
      cases parent : group.parent with
      | none =>
          have root : group ∈ t.topLevelGroups := List.mem_filter.2 ⟨hg, by simp [parent]⟩
          exact List.count_eq_one_of_mem nodup (List.mem_map_of_mem root)
      | some around =>
          obtain ⟨outer, ho, rfl⟩ := wf.group_parent hg parent
          have notRoot : group.id ∉ t.topLevelGroups.map (·.id) := by
            intro listed
            obtain ⟨root, mem, eq⟩ := List.mem_map.1 listed
            obtain ⟨mem, top⟩ := List.mem_filter.1 mem
            rw [wf.group_ext mem hg eq, parent] at top
            cases top
          have before := wf.idxOf_lt_of_parent ho hg parent
          rw [List.count_eq_zero_of_not_mem notRoot, Nat.zero_add]
          exact ih _ (hn ▸ before) ho rfl

end WellFormed

/-- **A pre-order of the groups that nothing contains has every group once.** -/
theorem PreOrder.nodup (wf : t.WellFormed) (h : t.PreOrder t.topLevelGroups order) :
    (order.map (·.id)).Nodup := by
  rw [List.nodup_iff_count_le_one]
  intro id
  by_cases mem : id ∈ order.map (·.id)
  · obtain ⟨group, listed, rfl⟩ := List.mem_map.1 mem
    have known := h.subset (fun _ root => (List.mem_filter.1 root).1) group listed
    exact Nat.le_of_eq (wf.count_preOrder_roots known h)
  · rw [List.count_eq_zero_of_not_mem mem]
    exact Nat.zero_le 1

theorem PreOrder.perm (wf : t.WellFormed) (h : t.PreOrder t.topLevelGroups order) :
    order.Perm t.groups := by
  have known := h.subset fun _ root => (List.mem_filter.1 root).1
  refine (List.perm_ext_iff_of_nodup (.of_map _ (h.nodup wf)) (.of_map _ wf.groupIds_nodup)).2
    fun group => ⟨known group, fun hg => ?_⟩
  have met : group.id ∈ order.map (·.id) := by
    rw [← List.count_pos_iff, wf.count_preOrder_roots hg h]
    exact Nat.one_pos
  obtain ⟨found, mem, eq⟩ := List.mem_map.1 met
  rwa [← wf.group_ext (known found mem) hg eq]

/-! ## It is what the outlines are -/

theorem outlineFrom_cons_of_some {unseen : List Group} {id : String} {later : List String}
    {group : Group} (found : findGroup? unseen id = some group) :
    outlineFrom unseen (id :: later) =
      group :: outlineFrom (withoutGroup unseen id) (group.childGroups ++ later) := by
  rw [outlineFrom]
  split <;> simp_all

namespace WellFormed

variable (wf : t.WellFormed)
include wf

/-- The walk makes a pre-order of groups that it has not seen. -/
theorem outlineFrom_of_preOrder {unseen : List Group} (h : t.PreOrder row order)
    (once : (order.map (·.id)).Nodup) (unseen_nodup : (unseen.map (·.id)).Nodup)
    (known : ∀ group ∈ unseen, group ∈ t.groups) (ahead : ∀ group ∈ order, group ∈ unseen) :
    outlineFrom unseen (row.map (·.id)) = order := by
  induction order generalizing row unseen with
  | nil =>
      cases h
      simp [outlineFrom]
  | cons group rest ih =>
      rw [List.map_cons, List.nodup_cons] at once
      obtain ⟨first, others⟩ := List.forall_mem_cons.1 ahead
      cases h with
      | @cons _ siblings inside behind inner outer =>
          have found : findGroup? unseen group.id = some group := by
            cases eq : findGroup? unseen group.id with
            | none => simpa using List.find?_eq_none.1 eq group first
            | some other =>
                have same := List.find?_some eq
                have mem := known other (List.mem_of_find?_eq_some eq)
                rw [wf.group_ext mem (known group first) (by simpa using same)]
          rw [List.map_cons, outlineFrom_cons_of_some found,
            wf.childGroups_eq group (known group first), ← map_id_subgroups, ← List.map_append,
            ih (inner.append outer) once.2 (nodup_withoutGroup unseen_nodup)]
          · intro other mem
            exact known other (List.mem_of_mem_eraseP mem)
          · intro other mem
            rw [withoutGroup_eq_filter unseen_nodup, List.mem_filter]
            have ne : other.id ≠ group.id := fun eq =>
              once.1 (eq ▸ List.mem_map_of_mem mem)
            exact ⟨others other mem, by simpa using ne⟩

/-- A pre-order in which no group comes twice is what the outlines are, one behind the other. -/
theorem flatMap_outline_eq (h : t.PreOrder row order) (once : (order.map (·.id)).Nodup)
    (known : ∀ group ∈ order, group ∈ t.groups) : row.flatMap t.outline = order := by
  induction h with
  | nil => rfl
  | @cons group siblings inside behind inner outer _ ih =>
      have one : t.PreOrder [group] (group :: inside) := by simpa using PreOrder.cons inner .nil
      rw [← List.cons_append, List.map_append, List.nodup_append] at once
      have first : t.outline group = group :: inside :=
        wf.outlineFrom_of_preOrder one once.1 wf.groupIds_nodup (fun _ mem => mem)
          fun other mem => known other (by simp at mem ⊢; tauto)
      rw [List.flatMap_cons, first, ih once.2.1 fun other mem => known other (by simp [mem])]
      rfl

/-- **The outlines of the groups that nothing contains are their pre-order.** -/
theorem preOrder_outlines : t.PreOrder t.topLevelGroups (t.topLevelGroups.flatMap t.outline) := by
  have roots : ∀ group ∈ t.topLevelGroups, group ∈ t.groups :=
    fun _ root => (List.mem_filter.1 root).1
  obtain ⟨order, h⟩ := wf.exists_preOrder roots
  rwa [wf.flatMap_outline_eq h (h.nodup wf) (h.subset roots)]

/-- **The outlines of the groups that nothing contains are all groups, each once.** -/
theorem outlines_perm : (t.topLevelGroups.flatMap t.outline).Perm t.groups :=
  wf.preOrder_outlines.perm wf

/-- **The outline of a group** is the group and the outlines of its subgroups. -/
theorem outline_eq_cons {group : Group} (hg : group ∈ t.groups) :
    t.outline group = group :: (t.subgroups group).flatMap t.outline := by
  have pre := wf.preOrder_outlines
  obtain ⟨inside, inner, part⟩ := pre.exists_infix_of_mem (wf.outlines_perm.mem_iff.2 hg)
  have once : ((group :: inside).map (·.id)).Nodup :=
    (pre.nodup wf).sublist (part.sublist.map _)
  have known : ∀ other ∈ group :: inside, other ∈ t.groups := fun other mem =>
    wf.outlines_perm.mem_iff.1 (part.subset mem)
  have one : t.PreOrder [group] (group :: inside) := by simpa using PreOrder.cons inner .nil
  have outline : t.outline group = group :: inside := by
    simpa using wf.flatMap_outline_eq one once known
  rw [List.map_cons, List.nodup_cons] at once
  rw [outline, wf.flatMap_outline_eq inner once.2 fun other mem =>
    known other (List.mem_cons_of_mem _ mem)]

end WellFormed

end Topology

end CloudCanvas
