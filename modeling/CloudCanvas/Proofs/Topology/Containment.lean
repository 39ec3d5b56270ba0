import CloudCanvas.Proofs.Topology.WellFormed
import Mathlib.Data.List.Nodup

/-!
# What the walks over the groups meet

A group is inside a row of ids if it has one of them, or is listed by a group that
is inside.  The walk level by level and the outline both meet exactly the groups
inside the ids they start from.  In a well-formed drawing "listed by" is "says it is
in".

## Main definitions

* `Inside`: the groups that a walk is to meet.

The main statements are `mem_contentsFrom_iff` and `mem_outlineFrom_iff`.
-/

namespace CloudCanvas

namespace Topology

/-- The groups with one of the ids and the groups listed by groups inside, all of
them among the given ones. -/
inductive Inside (groups : List Group) (ids : List String) : Group → Prop
  | listed {group : Group} (mem : group ∈ groups) (listed : group.id ∈ ids) :
      Inside groups ids group
  | child {outer group : Group} (inside : Inside groups ids outer) (mem : group ∈ groups)
      (listed : group.id ∈ outer.childGroups) : Inside groups ids group

variable {groups unseen : List Group} {ids : List String} {group : Group}

theorem Inside.mem (h : Inside groups ids group) : group ∈ groups := by
  cases h with
  | listed mem _ => exact mem
  | child _ mem _ => exact mem

theorem Inside.mono {ids' : List String} (h : Inside groups ids group)
    (subset : ∀ id ∈ ids, id ∈ ids') : Inside groups ids' group := by
  induction h with
  | listed mem listed => exact .listed mem (subset _ listed)
  | child _ mem listed ih => exact .child ih mem listed

/-! ## Level by level -/

theorem mem_groupsIn : group ∈ groupsIn ids unseen ↔ group ∈ unseen ∧ group.id ∈ ids := by
  simp [groupsIn]

theorem mem_groupsBeyond :
    group ∈ groupsBeyond ids unseen ↔ group ∈ unseen ∧ group.id ∉ ids := by
  simp [groupsBeyond]

/-- One level further: what is inside is on this level or inside the subgroups of
this level. -/
private theorem inside_of_next
    (h : Inside (groupsBeyond ids unseen) ((groupsIn ids unseen).flatMap (·.childGroups)) group) :
    Inside unseen ids group := by
  induction h with
  | listed mem listed =>
      obtain ⟨outer, hOuter, hListed⟩ := List.mem_flatMap.1 listed
      have hOuter := mem_groupsIn.1 hOuter
      exact .child (.listed hOuter.1 hOuter.2) (mem_groupsBeyond.1 mem).1 hListed
  | child _ mem listed ih => exact .child ih (mem_groupsBeyond.1 mem).1 listed

private theorem next_of_inside (h : Inside unseen ids group) (beyond : group.id ∉ ids) :
    Inside (groupsBeyond ids unseen) ((groupsIn ids unseen).flatMap (·.childGroups)) group := by
  induction h with
  | listed _ listed => exact absurd listed beyond
  | @child outer group inside mem listed ih =>
      have mem := mem_groupsBeyond.2 ⟨mem, beyond⟩
      by_cases hOuter : outer.id ∈ ids
      · exact .listed mem
          (List.mem_flatMap.2 ⟨outer, mem_groupsIn.2 ⟨inside.mem, hOuter⟩, listed⟩)
      · exact .child (ih hOuter) mem listed

/-- The walk level by level meets exactly what is inside its ids. -/
theorem mem_contentsFrom_iff : group ∈ contentsFrom unseen ids ↔ Inside unseen ids group := by
  fun_induction contentsFrom unseen ids with
  | case1 unseen ids none =>
      constructor
      · simp
      · intro h
        induction h with
        | listed mem listed =>
            have := mem_groupsIn.2 ⟨mem, listed⟩
            simp [none] at this
        | child _ _ _ ih => simp at ih
  | case2 unseen ids first others level ih =>
      rw [List.mem_append, ih, ← level, mem_groupsIn]
      constructor
      · rintro (⟨mem, listed⟩ | inside)
        · exact .listed mem listed
        · exact inside_of_next inside
      · intro h
        by_cases listed : group.id ∈ ids
        · exact .inl ⟨h.mem, listed⟩
        · exact .inr (next_of_inside h listed)

/-! ## In the order of an outline -/

/-- Without two equal ids, to take out the first group with an id is to take out
all. -/
theorem withoutGroup_eq_filter {id : String} (nodup : (unseen.map (·.id)).Nodup) :
    withoutGroup unseen id = unseen.filter (·.id != id) := by
  rw [withoutGroup]
  induction unseen with
  | nil => rfl
  | cons first rest ih =>
      rw [List.map_cons, List.nodup_cons] at nodup
      by_cases h : first.id = id
      · have others : rest.filter (·.id != id) = rest := by
          rw [List.filter_eq_self]
          intro group mem
          have ne : group.id ≠ id := fun eq =>
            nodup.1 (h ▸ eq ▸ List.mem_map_of_mem mem)
          simpa using ne
        simp [h, others]
      · simp [h, ih nodup.2]

theorem nodup_withoutGroup {id : String} (nodup : (unseen.map (·.id)).Nodup) :
    ((withoutGroup unseen id).map (·.id)).Nodup :=
  nodup.sublist (List.eraseP_sublist.map _)

private theorem mem_withoutGroup {id : String} (nodup : (unseen.map (·.id)).Nodup) :
    group ∈ withoutGroup unseen id ↔ group ∈ unseen ∧ group.id ≠ id := by
  simp [withoutGroup_eq_filter nodup]

/-- One group further: what is inside is this group, inside its subgroups, or
inside the ids still to come. -/
private theorem inside_of_taken {id : String} {later : List String} {found : Group}
    (nodup : (unseen.map (·.id)).Nodup) (mem : found ∈ unseen) (eq : found.id = id)
    (h : Inside (withoutGroup unseen id) (found.childGroups ++ later) group) :
    Inside unseen (id :: later) group := by
  induction h with
  | listed hMem listed =>
      have hMem := ((mem_withoutGroup nodup).1 hMem).1
      rcases List.mem_append.1 listed with listed | listed
      · exact .child (.listed mem (by simp [eq])) hMem listed
      · exact .listed hMem (List.mem_cons_of_mem _ listed)
  | child _ hMem listed ih => exact .child ih ((mem_withoutGroup nodup).1 hMem).1 listed

private theorem taken_of_inside {id : String} {later : List String} {found : Group}
    (nodup : (unseen.map (·.id)).Nodup) (unique : ∀ g ∈ unseen, g.id = id → g = found)
    (h : Inside unseen (id :: later) group) (ne : group.id ≠ id) :
    Inside (withoutGroup unseen id) (found.childGroups ++ later) group := by
  induction h with
  | listed mem listed =>
      have listed := (List.mem_cons.1 listed).resolve_left ne
      exact .listed ((mem_withoutGroup nodup).2 ⟨mem, ne⟩) (List.mem_append_right _ listed)
  | @child outer group inside mem listed ih =>
      have mem := (mem_withoutGroup nodup).2 ⟨mem, ne⟩
      by_cases hOuter : outer.id = id
      · obtain rfl := unique outer inside.mem hOuter
        exact .listed mem (List.mem_append_left _ listed)
      · exact .child (ih hOuter) mem listed

/-- An id that no group has leads nowhere. -/
private theorem later_of_absent {id : String} {later : List String}
    (absent : ∀ g ∈ unseen, g.id ≠ id) (h : Inside unseen (id :: later) group) :
    Inside unseen later group := by
  induction h with
  | listed mem listed =>
      exact .listed mem ((List.mem_cons.1 listed).resolve_left (absent _ mem))
  | child _ mem listed ih => exact .child ih mem listed

/-- The outline meets exactly what is inside its ids. -/
theorem mem_outlineFrom_iff (nodup : (unseen.map (·.id)).Nodup) :
    group ∈ outlineFrom unseen ids ↔ Inside unseen ids group := by
  fun_induction outlineFrom unseen ids with
  | case1 unseen =>
      constructor
      · simp
      · intro h
        induction h with
        | listed _ listed => simp at listed
        | child _ _ _ ih => simp at ih
  | case2 unseen id later none ih =>
      rw [ih nodup]
      have absent : ∀ g ∈ unseen, g.id ≠ id := fun g mem => by
        simpa using List.find?_eq_none.1 none g mem
      exact ⟨fun h => h.mono fun _ => List.mem_cons_of_mem _, later_of_absent absent⟩
  | case3 unseen id later found hFound ih =>
      have mem := List.mem_of_find?_eq_some hFound
      have eq : found.id = id := by simpa using List.find?_some hFound
      have unique : ∀ g ∈ unseen, g.id = id → g = found := fun g hg hid =>
        List.inj_on_of_nodup_map nodup hg mem (hid.trans eq.symm)
      rw [List.mem_cons, ih (nodup_withoutGroup nodup)]
      constructor
      · rintro (rfl | inside)
        · exact .listed mem (by simp [eq])
        · exact inside_of_taken nodup mem eq inside
      · intro h
        by_cases hid : group.id = id
        · exact .inl (unique group h.mem hid)
        · exact .inr (taken_of_inside nodup unique h hid)

/-! ## In a well-formed drawing -/

variable {t : Topology} {id : String}

theorem mem_contents_iff : group ∈ t.contents id ↔ Inside t.groups [id] group :=
  mem_contentsFrom_iff

/-- A group is among its own contents. -/
theorem mem_contents_self (h : group ∈ t.groups) : group ∈ t.contents group.id :=
  mem_contents_iff.2 (.listed h List.mem_cons_self)

namespace WellFormed

variable (wf : t.WellFormed)
include wf

/-- What is in a group of the contents belongs to the contents. -/
theorem mem_contents_of_parent {outer : Group} (ho : outer ∈ t.contents id)
    (hg : group ∈ t.groups) (inside : group.parent = some outer.id) :
    group ∈ t.contents id := by
  have ho := mem_contents_iff.1 ho
  exact mem_contents_iff.2 (.child ho hg ((wf.mem_childGroups_iff ho.mem hg).2 inside))

/-- Every group of the contents but the first lies in another. -/
theorem parent_of_mem_contents (h : group ∈ t.contents id) (ne : group.id ≠ id) :
    ∃ outer ∈ t.contents id, group.parent = some outer.id := by
  cases mem_contents_iff.1 h with
  | listed _ listed => exact absurd (List.mem_singleton.1 listed) ne
  | child inside mem listed =>
      exact ⟨_, mem_contents_iff.2 inside, (wf.mem_childGroups_iff inside.mem mem).1 listed⟩

end WellFormed

end Topology

end CloudCanvas
