import CloudCanvas.Proofs.Topology.Ancestors
import CloudCanvas.Proofs.Topology.Reachable
import CloudCanvas.Topology.Batch

/-!
# What deletions leave

Elements are deleted one after another, each with what is inside it.  In the end this is one
pruning: what is listed is gone, what has something listed around it is gone with it, and so
are the links that lose an end.  So neither the order of the deletions matters nor whether an
id comes twice or is that of nothing.

## Main definitions

* `Topology.Spared`: what survives the deletion of listed ids.
* `Topology.spared`: the drawing of what survives.

The main statement is `Topology.removeAll_eq_spared`.
-/

namespace CloudCanvas

namespace Topology

/-- An element that is not listed and around which no group is listed. -/
def Spared (t : Topology) (ids : List String) (id : String) : Prop :=
  id ∉ ids ∧ ∀ outer ∈ t.ancestorsOf id, outer.id ∉ ids

instance (t : Topology) (ids : List String) (id : String) : Decidable (t.Spared ids id) :=
  inferInstanceAs (Decidable (_ ∧ _))

/-- **The drawing of what survives**: the spared elements with the spared of their members, and
the links that are not listed and of which both ends are spared, in the order in which they
came. -/
def spared (t : Topology) (ids : List String) : Topology where
  nodes := t.nodes.filter (fun node => t.Spared ids node.id)
  groups := (t.groups.filter (fun group => t.Spared ids group.id)).map (fun group =>
    { group with
      childGroups := group.childGroups.filter (fun child => t.Spared ids child)
      childNodes := group.childNodes.filter (fun child => t.Spared ids child) })
  links := t.links.filter (fun link =>
    link.id ∉ ids ∧ t.Spared ids link.source ∧ t.Spared ids link.target)

/-- What does not survive. -/
def doomedBy (t : Topology) (ids : List String) (id : String) : Bool :=
  !decide (t.Spared ids id)

variable {t : Topology} {doomed other : String → Bool} {ids : List String} {id : String}

theorem doomedBy_iff : t.doomedBy ids id = true ↔
    id ∈ ids ∨ ∃ outer ∈ t.ancestorsOf id, outer.id ∈ ids := by
  rw [doomedBy, Bool.not_eq_true', decide_eq_false_iff_not, Spared, not_and_or, not_not]
  simp

/-! ## One pruning after another -/

theorem prune_prune : (t.prune doomed).prune other = t.prune (fun id => doomed id || other id) := by
  refine Topology.ext ?_ ?_ ?_
  · simp only [prune, List.filter_filter, Bool.not_or, Bool.and_comm]
  · simp only [prune, List.filter_map, List.filter_filter, List.map_map, Function.comp_def,
      Group.restrict, Bool.not_or, Bool.and_comm]
  · simp only [prune, List.filter_filter, Bool.not_or]
    exact List.filter_congr fun link _ => by
      cases doomed link.id <;> cases doomed link.source <;> cases doomed link.target <;> simp

/-- To prune nothing is to change nothing. -/
theorem prune_false : t.prune (fun _ => false) = t := by
  simp [prune, Group.restrict]

namespace WellFormed

variable (wf : t.WellFormed)
include wf

/-- Prunings of the same ids are the same. -/
theorem prune_congr (same : ∀ id ∈ t.ids, doomed id = other id) :
    t.prune doomed = t.prune other := by
  have node : ∀ node ∈ t.nodes, doomed node.id = other node.id := fun node mem =>
    same _ (mem_ids.2 (.inl (mem_elementIds.2 (.inl ⟨node, mem, rfl⟩))))
  have group : ∀ group ∈ t.groups, doomed group.id = other group.id := fun group mem =>
    same _ (mem_ids.2 (.inl (mem_elementIds.2 (.inr ⟨group, mem, rfl⟩))))
  refine Topology.ext ?_ ?_ ?_
  · exact List.filter_congr fun n mem => by rw [node n mem]
  · have alive : t.groups.filter (fun group => !doomed group.id) =
        t.groups.filter (fun group => !other group.id) :=
      List.filter_congr fun g mem => by rw [group g mem]
    rw [Topology.prune, Topology.prune, alive]
    refine List.map_congr_left fun outer kept => ?_
    have mem := (List.mem_filter.1 kept).1
    have groups : outer.childGroups.filter (fun id => !doomed id) =
        outer.childGroups.filter (fun id => !other id) := by
      refine List.filter_congr fun child listed => ?_
      rw [wf.childGroups_eq outer mem, mem_groupIdsIn] at listed
      obtain ⟨inner, hInner, -, rfl⟩ := listed
      rw [group inner hInner]
    have nodes : outer.childNodes.filter (fun id => !doomed id) =
        outer.childNodes.filter (fun id => !other id) := by
      refine List.filter_congr fun child listed => ?_
      rw [wf.childNodes_eq outer mem, mem_nodeIdsIn] at listed
      obtain ⟨inner, hInner, -, rfl⟩ := listed
      rw [node inner hInner]
    rw [Group.restrict, Group.restrict, groups, nodes]
  · refine List.filter_congr fun link mem => ?_
    obtain ⟨source, target⟩ := wf.link_ends link mem
    rw [same _ (mem_ids.2 (.inr ⟨link, mem, rfl⟩)), same _ (mem_ids.2 (.inl source)),
      same _ (mem_ids.2 (.inl target))]

/-! ## What the listed ids take with them -/

/-- No group is around a link. -/
theorem ancestorsOf_link {link : Link} (mem : link ∈ t.links) : t.ancestorsOf link.id = [] :=
  ancestorsOf_eq_nil (wf.linkId_notMem_elementIds mem)

/-- With a group, what is inside it is doomed. -/
theorem closedInward_doomedBy : t.ClosedInward (t.doomedBy ids) := by
  have inside : ∀ outer ∈ t.groups, t.doomedBy ids outer.id = true →
      ∀ element ∈ t.elements, element.parent = some outer.id →
        t.doomedBy ids element.id = true := by
    intro outer ho dead element mem parent
    rw [doomedBy_iff] at dead ⊢
    rw [wf.ancestorsOf_cons mem ho parent]
    rcases dead with listed | ⟨around, listed, dead⟩
    · exact .inr ⟨outer, List.mem_cons_self, listed⟩
    · exact .inr ⟨around, List.mem_cons_of_mem _ listed, dead⟩
  exact ⟨fun outer ho dead group hg => inside outer ho dead _ (group_mem_elements hg),
    fun outer ho dead node hn => inside outer ho dead _ (node_mem_elements hn)⟩

/-- The drawing of what survives is a pruning. -/
theorem spared_eq_prune : t.spared ids = t.prune (t.doomedBy ids) := by
  refine Topology.ext ?_ ?_ ?_
  · simp only [spared, Topology.prune, doomedBy, Bool.not_not]
  · simp only [spared, Topology.prune, doomedBy, Bool.not_not, Group.restrict]
  · refine List.filter_congr fun link mem => ?_
    have alone : t.Spared ids link.id ↔ link.id ∉ ids := by
      simp [Spared, wf.ancestorsOf_link mem]
    simp [doomedBy, alone, Bool.and_assoc]

/-- A pruning leaves the chains of groups around what it leaves. -/
theorem ancestorsOf_prune (closed : t.ClosedInward doomed) {element : Element}
    (mem : element ∈ t.elements) (alive : doomed element.id = false) :
    ((t.prune doomed).ancestorsOf element.id).map (·.id) =
      (t.ancestorsOf element.id).map (·.id) := by
  have wf' := wf.prune closed
  have kept_group : ∀ group ∈ t.groups, doomed group.id = false →
      group.restrict (fun id => !doomed id) ∈ (t.prune doomed).groups := fun group hg alive =>
    List.mem_map_of_mem (List.mem_filter.2 ⟨hg, by simp [alive]⟩)
  have kept : ∀ element ∈ t.elements, doomed element.id = false →
      ∃ left ∈ (t.prune doomed).elements, left.id = element.id ∧ left.parent = element.parent := by
    intro element mem alive
    rcases mem_elements.1 mem with ⟨group, hg, rfl⟩ | ⟨node, hn, rfl⟩
    · exact ⟨_, group_mem_elements (kept_group group hg alive), rfl, rfl⟩
    · have alive : doomed node.id = false := alive
      exact ⟨.node node, node_mem_elements (List.mem_filter.2 ⟨hn, by simp [alive]⟩), rfl, rfl⟩
  refine wf.element_induction (motive := fun element => doomed element.id = false →
    ((t.prune doomed).ancestorsOf element.id).map (·.id) =
      (t.ancestorsOf element.id).map (·.id)) ?_ ?_ mem alive
  · intro element mem top alive
    obtain ⟨left, there, same, parent⟩ := kept element mem alive
    rw [wf.ancestorsOf_root mem top, ← same, wf'.ancestorsOf_root there (parent.trans top)]
  · intro element mem outer ho inside ih alive
    have outerAlive : doomed outer.id = false := by
      rw [← Bool.not_eq_true]
      intro dead
      rcases mem_elements.1 mem with ⟨group, hg, rfl⟩ | ⟨node, hn, rfl⟩
      · exact Bool.false_ne_true (alive.symm.trans (closed.groups outer ho dead group hg inside))
      · exact Bool.false_ne_true (alive.symm.trans (closed.nodes outer ho dead node hn inside))
    obtain ⟨left, there, same, parent⟩ := kept element mem alive
    rw [wf.ancestorsOf_cons mem ho inside, ← same, wf'.ancestorsOf_cons there
      (kept_group outer ho outerAlive) (parent.trans inside), List.map_cons, List.map_cons]
    exact congrArg _ (ih outerAlive)

/-- What a pruning leaves is doomed by further ids as it would have been before. -/
theorem doomedBy_prune (closed : t.ClosedInward doomed) (mem : id ∈ t.ids)
    (alive : doomed id = false) : (t.prune doomed).doomedBy ids id = t.doomedBy ids id := by
  have chain : ((t.prune doomed).ancestorsOf id).map (·.id) = (t.ancestorsOf id).map (·.id) := by
    by_cases listed : id ∈ t.elementIds
    · obtain ⟨element, known, rfl⟩ := mem_elementIds_iff_element.1 listed
      exact wf.ancestorsOf_prune closed known alive
    · have gone : id ∉ (t.prune doomed).elementIds := fun still =>
        listed (List.mem_filter.1 (elementIds_prune ▸ still)).1
      rw [ancestorsOf_eq_nil listed, ancestorsOf_eq_nil gone]
  have around : ∀ u : Topology, (∃ outer ∈ u.ancestorsOf id, outer.id ∈ ids) ↔
      ∃ outer ∈ (u.ancestorsOf id).map (·.id), outer ∈ ids := fun u => by simp
  rw [Bool.eq_iff_iff, doomedBy_iff, doomedBy_iff, around, around, chain]

/-! ## One deletion -/

/-- Ids that are not in use doom nothing. -/
theorem prune_doomedBy_of_absent (absent : id ∉ t.ids) : t.prune (t.doomedBy [id]) = t := by
  have spared : ∀ used ∈ t.ids, t.doomedBy [id] used = false := by
    intro used mem
    rw [← Bool.not_eq_true, doomedBy_iff]
    rintro (listed | ⟨outer, around, listed⟩)
    · exact absent (List.mem_singleton.1 listed ▸ mem)
    · have ho := wf.mem_groups_of_mem_ancestorsOf around
      exact absent (List.mem_singleton.1 listed ▸
        mem_ids.2 (.inl (mem_elementIds.2 (.inr ⟨outer, ho, rfl⟩))))
  rw [wf.prune_congr spared, prune_false]

/-- An id that is not that of a group dooms nothing else. -/
private theorem doomedBy_singleton (notGroup : ∀ group ∈ t.groups, group.id ≠ id)
    (used : String) : t.doomedBy [id] used = (used == id) := by
  rw [Bool.eq_iff_iff, doomedBy_iff, beq_iff_eq, List.mem_singleton, or_iff_left]
  rintro ⟨outer, around, listed⟩
  exact notGroup outer (wf.mem_groups_of_mem_ancestorsOf around) (List.mem_singleton.1 listed)

/-- The id of a group dooms what the group contains. -/
private theorem doomedBy_group {group : Group} (hg : group ∈ t.groups) {used : String}
    (mem : used ∈ t.ids) :
    t.doomedBy [group.id] used = (t.contentIds group.id).contains used := by
  rw [Bool.eq_iff_iff, doomedBy_iff, List.contains_iff_mem, List.mem_singleton]
  have around : (∃ outer ∈ t.ancestorsOf used, outer.id ∈ [group.id]) ↔
      group ∈ t.ancestorsOf used := by
    constructor
    · intro ⟨outer, mem, same⟩
      have ho := wf.mem_groups_of_mem_ancestorsOf mem
      rwa [← wf.group_ext ho hg (List.mem_singleton.1 same)]
    · exact fun mem => ⟨group, mem, List.mem_singleton.2 rfl⟩
  rw [around]
  rcases mem_ids.1 mem with listed | ⟨link, hl, rfl⟩
  · obtain ⟨element, known, rfl⟩ := mem_elementIds_iff_element.1 listed
    exact (wf.mem_contentIds_iff_ancestor hg known).symm
  · have out := wf.linkId_notMem_elementIds hl
    have ne : link.id ≠ group.id := fun same =>
      out (mem_elementIds.2 (.inr ⟨group, hg, same.symm⟩))
    rw [wf.ancestorsOf_link hl]
    simp [ne, mt wf.contentIds_subset_elementIds out]

/-- **A deletion is the pruning of what its id dooms**, whatever the id is that of. -/
theorem getD_remove?_eq_prune (id : String) :
    (t.remove? id).getD t = t.prune (t.doomedBy [id]) := by
  by_cases used : id ∈ t.ids
  · rw [mem_ids, mem_elementIds] at used
    rcases used with (⟨node, hn, rfl⟩ | ⟨group, hg, rfl⟩) | ⟨link, hl, rfl⟩
    · have notGroup : ∀ group ∈ t.groups, group.id ≠ node.id := fun group hg same =>
        wf.node_ne_group hn hg same.symm
      rw [wf.remove?_node hn, funext (wf.doomedBy_singleton notGroup), Option.getD_some]
    · rw [wf.remove?_group hg, wf.prune_congr fun used mem => wf.doomedBy_group hg mem,
        Option.getD_some]
    · have notGroup : ∀ group ∈ t.groups, group.id ≠ link.id := fun group hg same =>
        wf.linkId_notMem_elementIds hl (mem_elementIds.2 (.inr ⟨group, hg, same⟩))
      rw [wf.remove?_link hl, funext (wf.doomedBy_singleton notGroup), Option.getD_some]
  · rw [remove?_of_absent used, wf.prune_doomedBy_of_absent used, Option.getD_none]

end WellFormed

/-! ## One deletion after another -/

/-- To delete the first id and then the others. -/
theorem removeAll_cons (first : String) (rest : List String) :
    (t.removeAll (first :: rest)).2.2 = (((t.remove? first).getD t).removeAll rest).2.2 := by
  rw [removeAll]
  cases t.remove? first <;> rfl

/-- A row of deletions is a history of removals. -/
theorem removeAll_eq_run (ids : List String) :
    (t.removeAll ids).2.2 = t.run (ids.map .remove) := by
  induction ids generalizing t with
  | nil => rfl
  | cons id ids ih =>
      have first : (t.apply (.remove id)).2 = (t.remove? id).getD t := by
        rw [apply]
        cases t.remove? id <;> rfl
      rw [removeAll_cons, ih, ← first]
      rfl

/-- **A row of deletions is one pruning.** -/
theorem WellFormed.removeAll_eq_prune (wf : t.WellFormed) (ids : List String) :
    (t.removeAll ids).2.2 = t.prune (t.doomedBy ids) := by
  induction ids generalizing t with
  | nil =>
      have nothing : t.doomedBy [] = fun _ => false := by
        funext id
        rw [← Bool.not_eq_true, doomedBy_iff]
        simp
      rw [nothing, prune_false]
      rfl
  | cons id ids ih =>
      have closed : t.ClosedInward (t.doomedBy [id]) := wf.closedInward_doomedBy
      rw [removeAll_cons, wf.getD_remove?_eq_prune, ih (wf.prune closed), prune_prune]
      refine wf.prune_congr fun used mem => ?_
      have split : t.doomedBy (id :: ids) used = (t.doomedBy [id] used || t.doomedBy ids used) := by
        rw [Bool.eq_iff_iff, Bool.or_eq_true, doomedBy_iff, doomedBy_iff, doomedBy_iff]
        simp only [List.mem_cons, List.not_mem_nil, or_false]
        grind
      cases alive : t.doomedBy [id] used with
      | true => simp [split, alive]
      | false => simp [split, alive, wf.doomedBy_prune closed mem alive]

/-- What survives depends on which ids are listed, not on how. -/
theorem spared_congr {others : List String} (same : ∀ id, id ∈ others ↔ id ∈ ids) :
    t.spared others = t.spared ids := by
  have spares : ∀ id, t.Spared others id ↔ t.Spared ids id := fun id => by simp [Spared, same]
  simp only [spared, spares, same]

/-- **Deletions leave what is not listed and has nothing listed around it**, with the links
that lose no end, whatever the order of the ids and however often each is listed. -/
theorem removeAll_eq_spared (reachable : t.Reachable) (ids : List String) :
    (t.removeAll ids).2.2 = t.run (ids.map .remove) ∧
      t.run (ids.map .remove) = t.spared ids ∧
        ∀ others : List String, (∀ id, id ∈ others ↔ id ∈ ids) →
          t.run (others.map .remove) = t.run (ids.map .remove) := by
  have wf := reachable.wellFormed
  have result : ∀ ids, t.run (ids.map .remove) = t.spared ids := fun ids => by
    rw [← removeAll_eq_run, wf.removeAll_eq_prune, wf.spared_eq_prune]
  refine ⟨removeAll_eq_run ids, result ids, fun others same => ?_⟩
  rw [result, result, spared_congr same]

/-- A network loses its subnet, which is listed twice and after the machine inside it.  Of three
links one is listed and another ends at the machine. -/
theorem removeAll_eq_spared_nested :
    let group (id : String) (parent : Option String) : Group :=
      ⟨⟨id, "group", ∅, parent, none⟩, [], []⟩
    let node (id : String) (around : Option String) : Node := ⟨id, "text-note", ∅, around, none⟩
    let link (id source target : String) : Link := ⟨id, source, target, ∅⟩
    let t := run ∅ [.addGroup (group "network" none), .addGroup (group "subnet" (some "network")),
      .addNode (node "machine" (some "subnet")), .addNode (node "note" (some "network")),
      .addNode (node "far" none), .addLink (link "lost" "machine" "far"),
      .addLink (link "listed" "note" "far"), .addLink (link "kept" "network" "far")]
    let left : Topology := ⟨[node "note" (some "network"), node "far" none],
      [{ group "network" none with childNodes := ["note"] }], [link "kept" "network" "far"]⟩
    t.Reachable ∧ t.run (["machine", "subnet", "listed", "nothing", "subnet"].map .remove) = left ∧
      t.run (["subnet", "listed", "nothing", "machine", "machine"].map .remove) = left := by
  intro group node link t left
  have reachable : t.Reachable := ⟨_, rfl⟩
  have deletions := removeAll_eq_spared reachable
    ["machine", "subnet", "listed", "nothing", "subnet"]
  have spared : t.spared ["machine", "subnet", "listed", "nothing", "subnet"] = left := by
    decide +kernel
  have result := deletions.2.1.trans spared
  refine ⟨reachable, result, ?_⟩
  rw [← result]
  exact deletions.2.2 _ (by grind)

end Topology

end CloudCanvas
