import CloudCanvas.Proofs.Topology.Containment

/-!
# Removals as prunings

To prune a drawing is to drop the elements with doomed ids from all its lists, the
membership lists included, and the links that end at any of them.  In a well-formed
drawing each removal is a pruning: of one node, of the contents of a group, of one
link.  A pruning leaves a well-formed drawing if what is inside a doomed group is
doomed too.

## Main definitions

* `Topology.prune`: the drawing without what is doomed.
* `Topology.ClosedInward`: with a group, what is inside it is doomed.
-/

namespace CloudCanvas

/-- A group of which the membership lists keep only some ids. -/
def Group.restrict (group : Group) (keep : String → Bool) : Group :=
  { group with
    childGroups := group.childGroups.filter keep
    childNodes := group.childNodes.filter keep }

namespace Topology

/-- A drawing without the elements that have doomed ids and the links that end at
these. -/
def prune (t : Topology) (doomed : String → Bool) : Topology where
  nodes := t.nodes.filter (fun node => !doomed node.id)
  groups := (t.groups.filter (fun group => !doomed group.id)).map
    (·.restrict (fun id => !doomed id))
  links := t.links.filter (fun link =>
    !doomed link.id && !doomed link.source && !doomed link.target)

/-- With a group, the groups and nodes directly inside it are doomed. -/
structure ClosedInward (t : Topology) (doomed : String → Bool) : Prop where
  groups : ∀ outer ∈ t.groups, doomed outer.id = true →
    ∀ group ∈ t.groups, group.parent = some outer.id → doomed group.id = true
  nodes : ∀ outer ∈ t.groups, doomed outer.id = true →
    ∀ node ∈ t.nodes, node.group = some outer.id → doomed node.id = true

@[ext] theorem ext {s t : Topology} (nodes : s.nodes = t.nodes) (groups : s.groups = t.groups)
    (links : s.links = t.links) : s = t := by
  cases s; cases t
  simp_all

variable {t : Topology} {doomed : String → Bool} {id : String}

/-! ## Pruning keeps the invariant -/

theorem elementIds_prune :
    (t.prune doomed).elementIds = t.elementIds.filter (fun id => !doomed id) := by
  simp [elementIds, prune, List.filter_map, Function.comp_def, Group.restrict]

private theorem ids_prune_sublist : (t.prune doomed).ids.Sublist t.ids := by
  rw [ids, elementIds_prune]
  exact List.filter_sublist.append (List.filter_sublist.map _)

private theorem parentsFirst_prune (wf : t.WellFormed) (closed : t.ClosedInward doomed) :
    ParentsFirst (t.prune doomed).groups := by
  intro before group after parent split inside
  obtain ⟨front, tail, hFilter, rfl, hTail⟩ := List.map_eq_append_iff.1 split
  obtain ⟨group, tail, rfl, rfl, rfl⟩ := List.map_eq_cons_iff.1 hTail
  obtain ⟨front', tail', hGroups, rfl, hTail'⟩ := List.filter_eq_append_iff.1 hFilter
  obtain ⟨skipped, rest, rfl, hSkipped, alive, rfl⟩ := List.filter_eq_cons_iff.1 hTail'
  have inside : group.parent = some parent := inside
  have split' : t.groups = (front' ++ skipped) ++ group :: rest := by simp [hGroups]
  have mem : group ∈ t.groups := by simp [split']
  obtain ⟨outer, hOuter, rfl⟩ := wf.parents_first _ _ _ _ split' inside
  have outerAlive : doomed outer.id = false := by
    rw [← Bool.not_eq_true]
    intro dead
    have dead := closed.groups outer (split' ▸ List.mem_append_left _ hOuter) dead _ mem inside
    simp [dead] at alive
  -- a group that is skipped is doomed, so the group around is one that stays in front
  have hFront : outer ∈ front' := by
    rcases List.mem_append.1 hOuter with h | h
    · exact h
    · exact absurd (by simpa using outerAlive) (hSkipped outer h)
  refine ⟨outer.restrict (fun id => !doomed id), ?_, rfl⟩
  exact List.mem_map_of_mem (List.mem_filter.2 ⟨hFront, by simpa using outerAlive⟩)

/-- **A pruning keeps a drawing well-formed.** -/
theorem WellFormed.prune (wf : t.WellFormed) (closed : t.ClosedInward doomed) :
    (t.prune doomed).WellFormed where
  ids_nodup := wf.ids_nodup.sublist ids_prune_sublist
  parents_first := parentsFirst_prune wf closed
  node_group := by
    intro node hNode parent inside
    obtain ⟨mem, alive⟩ := List.mem_filter.1 hNode
    obtain ⟨outer, hOuter, rfl⟩ := List.mem_map.1 (wf.node_group node mem parent inside)
    have outerAlive : doomed outer.id = false := by
      rw [← Bool.not_eq_true]
      intro dead
      simp [closed.nodes outer hOuter dead node mem inside] at alive
    simp only [Topology.prune, List.map_map, List.mem_map, List.mem_filter]
    exact ⟨outer, ⟨hOuter, by simpa using outerAlive⟩, rfl⟩
  childGroups_eq := by
    intro group hGroup
    obtain ⟨old, hOld, rfl⟩ := List.mem_map.1 hGroup
    have mem := (List.mem_filter.1 hOld).1
    simp only [Group.restrict, wf.childGroups_eq old mem, groupIdsIn, Topology.prune,
      List.filter_map, List.map_map, List.filter_filter, Function.comp_def]
    congr 1
    exact List.filter_congr fun _ _ => Bool.and_comm _ _
  childNodes_eq := by
    intro group hGroup
    obtain ⟨old, hOld, rfl⟩ := List.mem_map.1 hGroup
    have mem := (List.mem_filter.1 hOld).1
    simp only [Group.restrict, wf.childNodes_eq old mem, nodeIdsIn, Topology.prune,
      List.filter_map, List.filter_filter, Function.comp_def]
    congr 1
    exact List.filter_congr fun _ _ => Bool.and_comm _ _
  link_ends := by
    intro link hLink
    obtain ⟨mem, alive⟩ := List.mem_filter.1 hLink
    simp only [Bool.and_eq_true] at alive
    have ends := wf.link_ends link mem
    rw [elementIds_prune, List.mem_filter, List.mem_filter]
    exact ⟨⟨ends.1, alive.1.2⟩, ends.2, alive.2⟩
  node_noNulls node hNode := wf.node_noNulls node (List.mem_filter.1 hNode).1
  group_noNulls := by
    intro group hGroup
    obtain ⟨old, hOld, rfl⟩ := List.mem_map.1 hGroup
    exact wf.group_noNulls old (List.mem_filter.1 hOld).1
  link_noNulls link hLink := wf.link_noNulls link (List.mem_filter.1 hLink).1

/-! ## Removals are prunings -/

private theorem filter_not_beq_eq_self {xs : List String} (h : id ∉ xs) :
    xs.filter (fun other => !(other == id)) = xs := by
  rw [List.filter_eq_self]
  intro other mem
  have ne : other ≠ id := fun eq => h (eq ▸ mem)
  simpa using ne

namespace WellFormed

variable (wf : t.WellFormed)
include wf

theorem node_notMem_childGroups {node : Node} {group : Group} (hn : node ∈ t.nodes)
    (hg : group ∈ t.groups) : node.id ∉ group.childGroups := by
  rw [wf.childGroups_eq group hg, mem_groupIdsIn]
  rintro ⟨inner, mem, -, eq⟩
  exact wf.node_ne_group hn mem eq.symm

theorem group_notMem_childNodes {outer group : Group} (hg : group ∈ t.groups)
    (ho : outer ∈ t.groups) : group.id ∉ outer.childNodes := by
  rw [wf.childNodes_eq outer ho, mem_nodeIdsIn]
  rintro ⟨inner, mem, -, eq⟩
  exact wf.node_ne_group mem hg eq

/-- A group without a node is the same group, unless it is the one around it. -/
private theorem restrict_of_not_around {node : Node} {group : Group} (hn : node ∈ t.nodes)
    (hg : group ∈ t.groups) (out : node.group ≠ some group.id) :
    group.restrict (fun id => !(id == node.id)) = group := by
  have noNode : node.id ∉ group.childNodes := by
    rwa [wf.mem_childNodes_iff hg hn]
  rw [Group.restrict, filter_not_beq_eq_self noNode,
    filter_not_beq_eq_self (wf.node_notMem_childGroups hn hg)]

/-- To remove a node is to prune it. -/
theorem removeNode?_eq_prune {node : Node} (h : node ∈ t.nodes) :
    t.removeNode? node.id = some (t.prune (· == node.id)) := by
  have alive : t.groups.filter (fun group => !(group.id == node.id)) = t.groups := by
    rw [List.filter_eq_self]
    intro group mem
    simpa using (wf.node_ne_group h mem).symm
  have links : t.links.filter (fun link => !link.touches node.id) =
      (t.prune (· == node.id)).links := by
    refine List.filter_congr fun link mem => ?_
    have ne : (link.id == node.id) = false := by
      rw [beq_eq_false_iff_ne]
      exact fun eq => wf.linkId_notMem_elementIds mem
        (mem_elementIds.2 (.inl ⟨node, h, eq.symm⟩))
    simp [Link.touches, ne]
  rw [removeNode?, wf.node?_id h, Option.some.injEq]
  cases parent : node.group with
  | none =>
      refine Topology.ext rfl ?_ links
      have same : t.groups.map (·.restrict (fun id => !(id == node.id))) = t.groups := by
        refine (List.map_congr_left fun group mem => ?_).trans (List.map_id _)
        exact wf.restrict_of_not_around h mem (by simp [parent])
      exact (same.symm.trans (congrArg _ alive.symm))
  | some p =>
      refine Topology.ext rfl ?_ links
      have same : ∀ group ∈ t.groups, (if group.id = p then
          { group with childNodes := group.childNodes.filter (· != node.id) } else group) =
          group.restrict (fun id => !(id == node.id)) := by
        intro group mem
        split
        · rw [Group.restrict, filter_not_beq_eq_self (wf.node_notMem_childGroups h mem)]
          rfl
        · rename_i out
          refine (wf.restrict_of_not_around h mem ?_).symm
          simpa [parent] using Ne.symm out
      exact (List.map_congr_left same).trans (congrArg _ alive.symm)

/-! ### Groups -/

/-- A group is in the contents by its id alone. -/
theorem group_mem_contentIds_iff {group : Group} (hg : group ∈ t.groups) :
    group.id ∈ t.contentIds id ↔ group ∈ t.contents id := by
  rw [contentIds, List.mem_flatMap]
  constructor
  · rintro ⟨outer, hOuter, mem⟩
    have ho := (mem_contents_iff.1 hOuter).mem
    rcases List.mem_cons.1 mem with eq | mem
    · rwa [wf.group_ext hg ho eq]
    · exact absurd mem (wf.group_notMem_childNodes hg ho)
  · exact fun h => ⟨group, h, List.mem_cons_self⟩

/-- A node is in the contents if the group around it is. -/
theorem node_mem_contentIds_iff {node : Node} (hn : node ∈ t.nodes) :
    node.id ∈ t.contentIds id ↔ ∃ outer ∈ t.contents id, node.group = some outer.id := by
  rw [contentIds, List.mem_flatMap]
  constructor
  · rintro ⟨outer, hOuter, mem⟩
    have ho := (mem_contents_iff.1 hOuter).mem
    rcases List.mem_cons.1 mem with eq | mem
    · exact absurd eq (wf.node_ne_group hn ho)
    · exact ⟨outer, hOuter, (wf.mem_childNodes_iff ho hn).1 mem⟩
  · rintro ⟨outer, hOuter, inside⟩
    have ho := (mem_contents_iff.1 hOuter).mem
    exact ⟨outer, hOuter, List.mem_cons_of_mem _ ((wf.mem_childNodes_iff ho hn).2 inside)⟩

theorem contentIds_subset_elementIds {content : String} (h : content ∈ t.contentIds id) :
    content ∈ t.elementIds := by
  obtain ⟨outer, hOuter, mem⟩ := List.mem_flatMap.1 h
  have ho := (mem_contents_iff.1 hOuter).mem
  rw [mem_elementIds]
  rcases List.mem_cons.1 mem with rfl | mem
  · exact .inr ⟨outer, ho, rfl⟩
  · rw [wf.childNodes_eq outer ho, mem_nodeIdsIn] at mem
    obtain ⟨node, hn, -, eq⟩ := mem
    exact .inl ⟨node, hn, eq⟩

/-- With a group, its contents are closed inward. -/
theorem closedInward_contentIds : t.ClosedInward ((t.contentIds id).contains ·) where
  groups := by
    intro outer ho dead group hg inside
    rw [List.contains_iff_mem] at dead ⊢
    exact (wf.group_mem_contentIds_iff hg).2
      (wf.mem_contents_of_parent ((wf.group_mem_contentIds_iff ho).1 dead) hg inside)
  nodes := by
    intro outer ho dead node hn inside
    rw [List.contains_iff_mem] at dead ⊢
    exact (wf.node_mem_contentIds_iff hn).2
      ⟨outer, (wf.group_mem_contentIds_iff ho).1 dead, inside⟩

/-- Of a group outside the contents only the group itself is in the contents. -/
private theorem mem_contentIds_of_mem_childGroups {outer : Group} {child : String}
    (ho : outer ∈ t.groups) (out : outer.id ∉ t.contentIds id) (mem : child ∈ outer.childGroups) :
    child ∈ t.contentIds id → child = id := by
  rw [wf.childGroups_eq outer ho, mem_groupIdsIn] at mem
  obtain ⟨group, hg, inside, rfl⟩ := mem
  intro dead
  by_contra ne
  obtain ⟨around, hAround, inside'⟩ :=
    wf.parent_of_mem_contents ((wf.group_mem_contentIds_iff hg).1 dead) ne
  have same : around.id = outer.id := Option.some.inj (inside'.symm.trans inside)
  exact out (same ▸ (wf.group_mem_contentIds_iff (mem_contents_iff.1 hAround).mem).2 hAround)

/-- A group outside some contents loses at most their first group. -/
private theorem restrict_of_beyond {group outer : Group} (hg : group ∈ t.groups)
    (ho : outer ∈ t.groups) (out : outer.id ∉ t.contentIds group.id) :
    outer.restrict (fun id => !(t.contentIds group.id).contains id) =
      { outer with childGroups := outer.childGroups.filter (· != group.id) } := by
  have nodes : outer.childNodes.filter (fun id => !(t.contentIds group.id).contains id) =
      outer.childNodes := by
    rw [List.filter_eq_self]
    intro child mem
    rw [wf.childNodes_eq outer ho, mem_nodeIdsIn] at mem
    obtain ⟨node, hn, inside, rfl⟩ := mem
    rw [Bool.not_eq_true', ← Bool.not_eq_true, List.contains_iff_mem,
      wf.node_mem_contentIds_iff hn]
    rintro ⟨around, hAround, inside'⟩
    have same : around.id = outer.id := Option.some.inj (inside'.symm.trans inside)
    exact out (same ▸ (wf.group_mem_contentIds_iff (mem_contents_iff.1 hAround).mem).2 hAround)
  have groups : outer.childGroups.filter (fun id => !(t.contentIds group.id).contains id) =
      outer.childGroups.filter (· != group.id) := by
    refine List.filter_congr fun child mem => ?_
    rw [bne, Bool.not_inj_iff, Bool.eq_iff_iff, List.contains_iff_mem, beq_iff_eq]
    constructor
    · exact wf.mem_contentIds_of_mem_childGroups ho out mem
    · rintro rfl
      exact (wf.group_mem_contentIds_iff hg).2 (mem_contents_self hg)
  rw [Group.restrict, nodes, groups]

/-- To remove a group is to prune its contents. -/
theorem removeGroup?_eq_prune {group : Group} (h : group ∈ t.groups) :
    t.removeGroup? group.id = some (t.prune ((t.contentIds group.id).contains ·)) := by
  have links : t.links.filter (fun link => !(t.contentIds group.id).contains link.source &&
      !(t.contentIds group.id).contains link.target) =
      (t.prune ((t.contentIds group.id).contains ·)).links := by
    refine List.filter_congr fun link mem => ?_
    have out : (t.contentIds group.id).contains link.id = false := by
      rw [← Bool.not_eq_true, List.contains_iff_mem]
      exact fun dead =>
        wf.linkId_notMem_elementIds mem (wf.contentIds_subset_elementIds dead)
    simp only [out, Bool.not_false, Bool.true_and]
  rw [removeGroup?, wf.group?_id h, Option.some.injEq]
  cases parent : group.parent with
  | none =>
      refine Topology.ext rfl ?_ links
      refine (List.map_id _).symm.trans (List.map_congr_left fun outer hOuter => ?_)
      obtain ⟨ho, alive⟩ := List.mem_filter.1 hOuter
      have notListed : group.id ∉ outer.childGroups := by
        rw [wf.mem_childGroups_iff ho h]; simp [parent]
      rw [wf.restrict_of_beyond h ho (by simpa using alive)]
      simp only [bne, filter_not_beq_eq_self notListed]
      rfl
  | some p =>
      refine Topology.ext rfl ?_ links
      simp only [updateGroup, List.filter_map]
      have sameId : ∀ outer : Group, (if outer.id = p then
          { outer with childGroups := outer.childGroups.filter (· != group.id) }
          else outer).id = outer.id := fun outer => by split <;> rfl
      simp only [Function.comp_def, sameId]
      refine List.map_congr_left fun outer hOuter => ?_
      obtain ⟨ho, alive⟩ := List.mem_filter.1 hOuter
      rw [wf.restrict_of_beyond h ho (by simpa using alive)]
      split
      · rfl
      · rename_i out
        have notListed : group.id ∉ outer.childGroups := by
          rw [wf.mem_childGroups_iff ho h]
          simpa [parent] using Ne.symm out
        simp only [bne, filter_not_beq_eq_self notListed]

/-- To remove a link is to prune it. -/
theorem removeLink?_eq_prune {link : Link} (h : link ∈ t.links) :
    t.removeLink? link.id = some (t.prune (· == link.id)) := by
  have out := wf.linkId_notMem_elementIds h
  have ne : ∀ id ∈ t.elementIds, (id == link.id) = false := by
    intro id mem
    rw [beq_eq_false_iff_ne]
    exact fun eq => out (eq ▸ mem)
  rw [removeLink?, wf.link?_id h, Option.some.injEq]
  refine Topology.ext ?_ ?_ ?_
  · refine (List.filter_eq_self.2 fun node mem => ?_).symm
    simp [ne _ (mem_elementIds.2 (.inl ⟨node, mem, rfl⟩))]
  · have alive : t.groups.filter (fun group => !(group.id == link.id)) = t.groups := by
      rw [List.filter_eq_self]
      intro group mem
      simp [ne _ (mem_elementIds.2 (.inr ⟨group, mem, rfl⟩))]
    simp only [Topology.prune, alive]
    refine (List.map_id _).symm.trans (List.map_congr_left fun group mem => ?_)
    have noGroup : link.id ∉ group.childGroups := by
      rw [wf.childGroups_eq group mem, mem_groupIdsIn]
      rintro ⟨inner, hInner, -, eq⟩
      exact out (eq ▸ mem_elementIds.2 (.inr ⟨inner, hInner, rfl⟩))
    have noNode : link.id ∉ group.childNodes := by
      rw [wf.childNodes_eq group mem, mem_nodeIdsIn]
      rintro ⟨inner, hInner, -, eq⟩
      exact out (eq ▸ mem_elementIds.2 (.inl ⟨inner, hInner, rfl⟩))
    rw [Group.restrict, filter_not_beq_eq_self noGroup, filter_not_beq_eq_self noNode]
    rfl
  · refine List.filter_congr fun other mem => ?_
    have ends := wf.link_ends other mem
    simp [ne _ ends.1, ne _ ends.2, bne]

/-! ### Whatever has an id -/

omit wf in
private theorem removeNode?_of_absent (absent : ¬ ∃ node ∈ t.nodes, node.id = id) :
    t.removeNode? id = none := by
  rw [← isSome_node?_iff, Option.not_isSome_iff_eq_none] at absent
  rw [Topology.removeNode?, absent]

omit wf in
private theorem removeGroup?_of_absent (absent : ¬ ∃ group ∈ t.groups, group.id = id) :
    t.removeGroup? id = none := by
  rw [← List.mem_map, ← isSome_group?_iff, Option.not_isSome_iff_eq_none] at absent
  rw [Topology.removeGroup?, absent]

/-- To remove what has the id of a node is to prune the node. -/
theorem remove?_node {node : Node} (h : node ∈ t.nodes) :
    t.remove? node.id = some (t.prune (· == node.id)) := by
  rw [Topology.remove?, wf.removeNode?_eq_prune h]
  rfl

/-- To remove what has the id of a group is to prune its contents. -/
theorem remove?_group {group : Group} (h : group ∈ t.groups) :
    t.remove? group.id = some (t.prune ((t.contentIds group.id).contains ·)) := by
  have noNode : t.removeNode? group.id = none :=
    removeNode?_of_absent fun ⟨_, mem, eq⟩ => wf.node_ne_group mem h eq
  rw [Topology.remove?, noNode, wf.removeGroup?_eq_prune h]
  rfl

/-- To remove what has the id of a link is to prune the link. -/
theorem remove?_link {link : Link} (h : link ∈ t.links) :
    t.remove? link.id = some (t.prune (· == link.id)) := by
  have out := wf.linkId_notMem_elementIds h
  rw [mem_elementIds, not_or] at out
  rw [Topology.remove?, removeNode?_of_absent out.1, removeGroup?_of_absent out.2,
    wf.removeLink?_eq_prune h]
  rfl

omit wf in
/-- Under an id that is not in use there is nothing to remove. -/
theorem remove?_of_absent (absent : id ∉ t.ids) : t.remove? id = none := by
  rw [mem_ids, mem_elementIds, not_or, not_or] at absent
  obtain ⟨⟨noNode, noGroup⟩, noLink⟩ := absent
  rw [← isSome_link?_iff, Option.not_isSome_iff_eq_none] at noLink
  rw [Topology.remove?, removeNode?_of_absent noNode, removeGroup?_of_absent noGroup,
    Topology.removeLink?, noLink]
  rfl

/-! ## Removals keep the invariant -/

theorem removeNode? {t' : Topology} (h : t.removeNode? id = some t') : t'.WellFormed := by
  have found : ∃ node ∈ t.nodes, node.id = id := by
    rw [← isSome_node?_iff, Option.isSome_iff_ne_none]
    intro none
    simp [Topology.removeNode?, none] at h
  obtain ⟨node, mem, rfl⟩ := found
  obtain rfl := Option.some.inj ((wf.removeNode?_eq_prune mem).symm.trans h)
  refine wf.prune ⟨fun outer ho dead => ?_, fun outer ho dead => ?_⟩
  all_goals exact absurd (by simpa using dead) (wf.node_ne_group mem ho).symm

theorem removeGroup? {t' : Topology} (h : t.removeGroup? id = some t') : t'.WellFormed := by
  have found : ∃ group ∈ t.groups, group.id = id := by
    rw [← List.mem_map, ← isSome_group?_iff, Option.isSome_iff_ne_none]
    intro none
    simp [Topology.removeGroup?, none] at h
  obtain ⟨group, mem, rfl⟩ := found
  obtain rfl := Option.some.inj ((wf.removeGroup?_eq_prune mem).symm.trans h)
  exact wf.prune wf.closedInward_contentIds

theorem removeLink? {t' : Topology} (h : t.removeLink? id = some t') : t'.WellFormed := by
  have found : ∃ link ∈ t.links, link.id = id := by
    rw [← isSome_link?_iff, Option.isSome_iff_ne_none]
    intro none
    simp [Topology.removeLink?, none] at h
  obtain ⟨link, mem, rfl⟩ := found
  obtain rfl := Option.some.inj ((wf.removeLink?_eq_prune mem).symm.trans h)
  have out := wf.linkId_notMem_elementIds mem
  refine wf.prune ⟨fun outer ho dead => ?_, fun outer ho dead => ?_⟩
  all_goals
    have eq : outer.id = link.id := by simpa using dead
    exact absurd (eq ▸ mem_elementIds.2 (.inr ⟨outer, ho, rfl⟩)) out

theorem remove? {t' : Topology} (h : t.remove? id = some t') : t'.WellFormed := by
  simp only [Topology.remove?, Option.orElse_eq_orElse, Option.orElse_eq_or,
    Option.or_eq_some_iff] at h
  rcases h with h | ⟨-, h | ⟨-, h⟩⟩
  · exact wf.removeNode? h
  · exact wf.removeGroup? h
  · exact wf.removeLink? h

end WellFormed

end Topology

end CloudCanvas
