import CloudCanvas.Proofs.Topology.Batch

/-!
# Insertions that are taken back

Nothing in a drawing mentions an id that is not in use: no link ends there, and no group
lists it.  So what has just been added can be removed without a trace, and a row of
insertions can be taken back in whatever order.

## Main definitions

* `Edit.addedId?`: the id of what an edit adds.
* `Topology.Adds`: a row of insertions, all of which are done.

The main statements are `Topology.apply_remove_of_added` and, for rows,
`Topology.Adds.removeAll_eq`.
-/

namespace CloudCanvas

/-- The id of what an edit adds. -/
def Edit.addedId? : Edit → Option String
  | .addNode node => some node.id
  | .addGroup group => some group.id
  | .addLink link => some link.id
  | .remove _ | .removeNode _ | .removeGroup _ | .removeLink _ | .setProperty _ _ _
  | .removeProperty _ _ | .clear | .load _ => none

namespace Group

variable {keep : String → Bool} {id : String} (parent : Option String) (group : Group)

theorem restrict_listNode (out : keep id = false) :
    (group.listNode parent id).restrict keep = group.restrict keep := by
  rw [listNode]
  split
  · simp [restrict, out]
  · rfl

theorem restrict_listGroup (out : keep id = false) :
    (group.listGroup parent id).restrict keep = group.restrict keep := by
  rw [listGroup]
  split
  · simp [restrict, out]
  · rfl

end Group

namespace Topology

variable {t u : Topology} {id : String}

/-! ## What an insertion adds is pruned -/

theorem prune_withNode (node : Node) :
    (t.withNode node).prune (· == node.id) = t.prune (· == node.id) := by
  refine Topology.ext ?_ ?_ ?_
  · simp [prune, withNode]
  · simp [prune, withNode, List.filter_map, Function.comp_def, Group.restrict_listNode]
  · simp [prune, withNode]

theorem prune_withGroup (group : Group) :
    (t.withGroup group).prune (· == group.id) = t.prune (· == group.id) := by
  refine Topology.ext ?_ ?_ ?_
  · simp [prune, withGroup]
  · simp [prune, withGroup, List.filter_map, Function.comp_def, Group.restrict_listGroup]
  · simp [prune, withGroup]

theorem prune_withLink (link : Link) :
    (t.withLink link).prune (· == link.id) = t.prune (· == link.id) := by
  refine Topology.ext ?_ ?_ ?_
  · simp [prune, withLink]
  · simp [prune, withLink]
  · simp [prune, withLink]

namespace WellFormed

variable (wf : t.WellFormed)
include wf

/-- To prune an id that is not in use is to change nothing. -/
theorem prune_of_absent (absent : id ∉ t.ids) : t.prune (· == id) = t := by
  have alive : ∀ used ∈ t.ids, (used == id) = false := fun used mem =>
    beq_false_of_ne (ne_of_mem_of_not_mem mem absent)
  rw [wf.prune_congr alive, prune_false]

/-- A group that lists nothing contains nothing but itself. -/
theorem contentIds_of_bare {group : Group} (h : group ∈ t.groups)
    (noGroups : group.childGroups = []) (noNodes : group.childNodes = []) :
    (t.contentIds group.id).contains = (· == group.id) := by
  have alone : ∀ inner ∈ t.contents group.id, inner = group := by
    intro inner mem
    rw [mem_contents_iff] at mem
    induction mem with
    | listed mem listed => exact wf.group_ext mem h (List.mem_singleton.1 listed)
    | child _ _ listed ih =>
        rw [ih, noGroups] at listed
        cases listed
  funext used
  rw [Bool.eq_iff_iff, List.contains_iff_mem, beq_iff_eq, contentIds, List.mem_flatMap]
  constructor
  · rintro ⟨inner, mem, listed⟩
    obtain rfl := alone inner mem
    simpa [noNodes] using listed
  · rintro rfl
    exact ⟨group, mem_contents_self h, List.mem_cons_self⟩

/-! ## One insertion -/

theorem remove?_of_addNode {node : Node} (added : t.addNode node = .ok u) :
    u.remove? node.id = some t := by
  obtain ⟨fresh, inside, rfl⟩ := addNode_eq_ok_iff.1 added
  have mem : node.withoutNulls ∈ (t.withNode node).nodes := by
    simp [Topology.withNode, Node.withoutNulls]
  have removed := (wf.withNode fresh inside).remove?_node mem
  calc (t.withNode node).remove? node.id
    _ = some ((t.withNode node).prune (· == node.id)) := removed
    _ = some t := by rw [prune_withNode, wf.prune_of_absent fresh]

theorem remove?_of_addGroup {group : Group} (added : t.addGroup group = .ok u) :
    u.remove? group.id = some t := by
  obtain ⟨fresh, inside, rfl⟩ := addGroup_eq_ok_iff.1 added
  have wf' := wf.withGroup fresh inside
  have mem : group.toGroupRecord.withoutNulls.bare ∈ (t.withGroup group).groups := by
    simp [Topology.withGroup, GroupRecord.withoutNulls, GroupRecord.bare]
  have removed := wf'.remove?_group mem
  rw [wf'.contentIds_of_bare mem rfl rfl] at removed
  calc (t.withGroup group).remove? group.id
    _ = some ((t.withGroup group).prune (· == group.id)) := removed
    _ = some t := by rw [prune_withGroup, wf.prune_of_absent fresh]

theorem remove?_of_addLink {link : Link} (added : t.addLink link = .ok u) :
    u.remove? link.id = some t := by
  obtain ⟨fresh, ends, rfl⟩ := addLink_eq_ok_iff.1 added
  have mem : link.withoutNulls ∈ (t.withLink link).links := by
    simp [Topology.withLink, Link.withoutNulls]
  have removed := (wf.withLink fresh ends).remove?_link mem
  calc (t.withLink link).remove? link.id
    _ = some ((t.withLink link).prune (· == link.id)) := removed
    _ = some t := by rw [prune_withLink, wf.prune_of_absent fresh]

end WellFormed

theorem settle_eq_done_iff {result : Except IntegrityError Topology} :
    t.settle result = (.done, u) ↔ result = .ok u := by
  cases result <;> simp [settle]

theorem settleRemoval_of_some {result : Option Topology} (found : result = some u) :
    t.settleRemoval result = (.removed true, u) := by
  rw [found, settleRemoval]

theorem WellFormed.apply_remove (wf : t.WellFormed) {edit : Edit} (adds : edit.addedId? = some id)
    (done : t.apply edit = (.done, u)) : u.apply (.remove id) = (.removed true, t) := by
  cases edit with
  | addNode node =>
      rw [apply_addNode] at done
      obtain rfl := Option.some.inj adds
      exact settleRemoval_of_some (wf.remove?_of_addNode (settle_eq_done_iff.1 done))
  | addGroup group =>
      rw [apply_addGroup] at done
      obtain rfl := Option.some.inj adds
      exact settleRemoval_of_some (wf.remove?_of_addGroup (settle_eq_done_iff.1 done))
  | addLink link =>
      rw [apply_addLink] at done
      obtain rfl := Option.some.inj adds
      exact settleRemoval_of_some (wf.remove?_of_addLink (settle_eq_done_iff.1 done))
  | _ => cases adds

/-- **Removal undoes insertion.**  Whatever the history of a drawing, if an element can be added
to it, then the removal of that element's id finds something and leaves the drawing as it was. -/
theorem apply_remove_of_added (reachable : t.Reachable) {edit : Edit}
    (adds : edit.addedId? = some id) (done : t.apply edit = (.done, u)) :
    u.apply (.remove id) = (.removed true, t) :=
  reachable.wellFormed.apply_remove adds done

/-- A group with a node in it that a link joins to another one, and a node, a group and a link
that can be added there. -/
theorem apply_remove_of_added_nested :
    let group (id : String) (parent : Option String) : Group :=
      ⟨⟨id, "area", ∅, parent, none⟩, ["stale"], []⟩
    let node (id : String) (parent : Option String) : Node := ⟨id, "public-ip", ∅, parent, none⟩
    let t := run ∅ [.addGroup (group "net" none), .addNode (node "a" (some "net")),
      .addNode (node "b" none), .addLink ⟨"link-1", "a", "b", ∅⟩]
    ∀ edit ∈ [Edit.addNode (node "c" (some "net")), .addGroup (group "inner" (some "net")),
        .addLink ⟨"link-2", "net", "a", Dict.ofList [("note", .null)]⟩],
      (t.apply edit).1 = .done ∧ ∃ id, edit.addedId? = some id ∧
        (t.apply edit).2.apply (.remove id) = (.removed true, t) := by
  intro group node t edit mem
  have undone {id : String} (adds : edit.addedId? = some id) (done : (t.apply edit).1 = .done) :
      (t.apply edit).1 = .done ∧ ∃ id, edit.addedId? = some id ∧
        (t.apply edit).2.apply (.remove id) = (.removed true, t) :=
    ⟨done, id, adds, apply_remove_of_added ⟨_, rfl⟩ adds (Prod.ext done rfl)⟩
  simp only [List.mem_cons, List.not_mem_nil, or_false] at mem
  rcases mem with rfl | rfl | rfl
  · exact undone rfl (by decide +kernel)
  · exact undone rfl (by decide +kernel)
  · exact undone rfl (by decide +kernel)

/-! ## Rows of insertions -/

/-- Insertions that are all done make one drawing of another; the ids are those of what they
add. -/
inductive Adds : Topology → List String → Topology → Prop
  | nil {t : Topology} : Adds t [] t
  | cons {t u v : Topology} {edit : Edit} {id : String} {ids : List String}
      (adds : edit.addedId? = some id) (done : t.apply edit = (.done, u)) (rest : Adds u ids v) :
      Adds t (id :: ids) v

namespace Adds

variable {ids : List String}

theorem wellFormed (h : Adds t ids u) (wf : t.WellFormed) : u.WellFormed := by
  induction h with
  | nil => exact wf
  | @cons t u v edit _ _ _ done _ ih =>
      have next := wf.apply edit
      rw [done] at next
      exact ih next

/-- A row of insertions is taken back from its end. -/
theorem run_remove (h : Adds t ids u) (wf : t.WellFormed) :
    u.run (ids.reverse.map .remove) = t := by
  induction h with
  | nil => rfl
  | @cons t u v edit id ids adds done _ ih =>
      have next := wf.apply edit
      rw [done] at next
      have last := wf.apply_remove adds done
      calc v.run ((id :: ids).reverse.map .remove)
        _ = (v.run (ids.reverse.map .remove)).run [.remove id] := by
          rw [List.reverse_cons, List.map_append, run, List.foldl_append]
          rfl
        _ = u.run [.remove id] := by rw [ih next]
        _ = t := congrArg Prod.snd last

/-- **A row of insertions is taken back in any order**, and an id may be listed more than
once. -/
theorem removeAll_eq (h : Adds t ids u) (wf : t.WellFormed) {others : List String}
    (same : ∀ id, id ∈ others ↔ id ∈ ids) : (u.removeAll others).2.2 = t := by
  have wf' := h.wellFormed wf
  have reversed : ∀ id, id ∈ others ↔ id ∈ ids.reverse := fun id => by
    rw [List.mem_reverse, same]
  calc (u.removeAll others).2.2
    _ = u.spared others := by rw [wf'.removeAll_eq_prune, wf'.spared_eq_prune]
    _ = u.spared ids.reverse := spared_congr reversed
    _ = u.run (ids.reverse.map .remove) := by
      rw [wf'.spared_eq_prune, ← wf'.removeAll_eq_prune, removeAll_eq_run]
    _ = t := h.run_remove wf

end Adds

end Topology

end CloudCanvas
