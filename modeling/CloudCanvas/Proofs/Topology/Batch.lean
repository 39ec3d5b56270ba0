import CloudCanvas.Proofs.Archive.Coherence
import CloudCanvas.Proofs.Topology.Deletion

/-!
# What batches leave

A batch of groups, nodes or links that is not refused extends the drawing by all of its
records: they stand behind those of the drawing, in their order, and each group lists what
has come to be inside it.  No batch of edits makes a drawing that is not well-formed.

## Main definitions

* `Topology.extend`: a drawing with further records.
* `LinkDraft.Makes`: the links that a draft can become.

The main statements are `Topology.addNodes_eq_extend`, `Topology.WellFormed.addGroups_eq_extend`
and `Topology.addLinks_eq_extend`.
-/

namespace CloudCanvas

/-- A group that lists what of an archive is directly inside it, behind what it has. -/
def Group.enlist (a : Archive) (group : Group) : Group :=
  { group with
    childGroups := group.childGroups ++
      (a.groups.filter (fun record => record.parent == some group.id)).map (·.id)
    childNodes := group.childNodes ++
      (a.nodes.filter (fun node => node.group == some group.id)).map (·.id) }

/-- A stored group before anything is inside it. -/
def GroupRecord.bare (record : GroupRecord) : Group :=
  { record with childGroups := [], childNodes := [] }

/-- A link is one that a draft asks for.  Without an id in the draft it is a numbered one. -/
structure LinkDraft.Makes (draft : LinkDraft) (link : Link) : Prop where
  id : ∀ id, draft.id = some id → link.id = id
  numbered : draft.id = none → ∃ n, link.id = numberedLink n
  source : link.source = draft.source
  target : link.target = draft.target
  properties : link.properties = draft.properties

namespace Topology

/-- **A drawing with further records.**  They stand behind its own, and each group, old or new,
lists what of them is directly inside it. -/
def extend (t : Topology) (a : Archive) : Topology where
  nodes := t.nodes ++ a.nodes
  groups := (t.groups ++ a.groups.map (·.bare)).map (·.enlist a)
  links := t.links ++ a.links

variable {t t' : Topology} {a : Archive}

/-! ## One record after another -/

theorem extend_links (links : List Link) :
    t.extend ⟨[], [], links⟩ = { t with links := t.links ++ links } := by
  simp [extend, Group.enlist]

theorem extend_empty : t.extend ⟨[], [], []⟩ = t := by
  rw [extend_links, List.append_nil]

theorem withNode_extend (node : Node) : (t.extend a).withNode node =
    t.extend { a with nodes := a.nodes ++ [node.withoutNulls] } := by
  refine Topology.ext ?_ ?_ ?_
  · simp [withNode, extend, Node.withoutNulls]
  · simp only [withNode, groups_enterNode, extend, List.map_map]
    refine List.map_congr_left fun group _ => ?_
    by_cases inside : node.group = some group.id
    · simp [Group.listNode, Group.enlist, Node.withoutNulls, inside]
    · simp [Group.listNode, Group.enlist, Node.withoutNulls, inside]
  · simp [withNode, extend]

theorem groupIdsIn_extend (id : String) : (t.extend a).groupIdsIn id = t.groupIdsIn id ++
    (a.groups.filter (fun record => record.parent == some id)).map (·.id) := by
  simp [groupIdsIn, extend, List.filter_map, Function.comp_def, Group.enlist, GroupRecord.bare]

theorem nodeIdsIn_extend (id : String) : (t.extend a).nodeIdsIn id = t.nodeIdsIn id ++
    (a.nodes.filter (fun node => node.group == some id)).map (·.id) := by
  simp [nodeIdsIn, extend]

/-- Nothing is inside a group that is new. -/
theorem withGroup_extend {group : Group} (wf : (t.extend a).WellFormed)
    (fresh : group.id ∉ (t.extend a).ids)
    (inside : ∀ p, group.parent = some p → p ∈ (t.extend a).groups.map (·.id)) :
    (t.extend a).withGroup group =
      t.extend { a with groups := a.groups ++ [group.toGroupRecord.withoutNulls] } := by
  have absent := groupId_absent fresh
  have notSelf : group.parent ≠ some group.id := fun eq => absent (inside _ eq)
  have noGroups := wf.groupIdsIn_eq_nil absent
  have noNodes := wf.nodeIdsIn_eq_nil absent
  rw [groupIdsIn_extend, List.append_eq_nil_iff] at noGroups
  rw [nodeIdsIn_extend, List.append_eq_nil_iff] at noNodes
  let record := group.toGroupRecord.withoutNulls
  let b : Archive := { a with groups := a.groups ++ [record] }
  have old : ∀ outer, (Group.enlist a outer).listGroup group.parent group.id = outer.enlist b := by
    intro outer
    by_cases around : group.parent = some outer.id
    · simp [Group.listGroup, Group.enlist, b, record, GroupRecord.withoutNulls, around]
    · simp [Group.listGroup, Group.enlist, b, record, GroupRecord.withoutNulls, around]
  have new : record.bare.enlist b = record.bare := by
    simp [Group.enlist, b, record, GroupRecord.withoutNulls, GroupRecord.bare, noGroups.2,
      noNodes.2, notSelf]
  refine Topology.ext ?_ ?_ ?_
  · simp [withGroup, extend]
  · calc ((t.extend a).withGroup group).groups
      _ = ((t.groups ++ a.groups.map (·.bare)).map (·.enlist a)).map
            (Group.listGroup group.parent group.id) ++ [record.bare] := by
        simp only [withGroup, groups_enterGroup, extend]
        rfl
      _ = (t.groups ++ a.groups.map (·.bare)).map (·.enlist b) ++ [record.bare.enlist b] := by
        rw [List.map_map, new]
        exact congrArg (· ++ _) (List.map_congr_left fun outer _ => old outer)
      _ = (t.extend b).groups := by simp [extend, b]
  · simp [withGroup, extend]

/-! ## Whole batches -/

theorem addGroups_eq_foldlM (t : Topology) (groups : List Group) :
    t.addGroups groups = groups.foldlM addGroup t :=
  map_tried_forM _ groups

theorem addNodes_eq_foldlM (t : Topology) (nodes : List Node) :
    t.addNodes nodes = nodes.foldlM addNode t :=
  map_tried_forM _ nodes

theorem setProperties_eq_foldlM (t : Topology) (id : String) (changes : Properties) :
    t.setProperties id changes =
      changes.entries.foldlM (fun t change => t.setProperty id change.1 change.2) t :=
  map_tried_forM _ changes.entries

/-- A draft adds one link. -/
theorem addDraft_eq (t : Topology) (draft : LinkDraft) :
    let id := draft.id.getD t.freshLinkId
    t.addDraft draft = t.addLink ⟨id, draft.source, draft.target, draft.properties⟩ >>=
      fun u => .ok (id, u) := by
  intro id
  rw [addDraft, Change.addDraft, tried, after_get_bind, ← tried, tried_bind, addLink]
  cases t.tried (Change.addLink ⟨id, draft.source, draft.target, draft.properties⟩) <;> rfl

/-- Drafts add what the first adds and then what the others add. -/
theorem addLinks_cons (t : Topology) (draft : LinkDraft) (drafts : List LinkDraft) :
    t.addLinks (draft :: drafts) = t.addDraft draft >>= fun first =>
      first.2.addLinks drafts >>= fun later => .ok (first.1 :: later.1, later.2) := by
  rw [addLinks, Change.addLinks, List.mapM_cons, tried_bind]
  refine bind_congr fun first => ?_
  rw [tried_bind]
  rfl

/-- **Nodes that are added extend a drawing.** -/
theorem addNodes_eq_extend {nodes : List Node} (h : t.addNodes nodes = .ok t') :
    t' = t.extend (Archive.withoutNulls ⟨nodes, [], []⟩) := by
  rw [addNodes_eq_foldlM] at h
  refine foldlM_collects
    (P := fun before u => u = t.extend (Archive.withoutNulls ⟨before, [], []⟩))
    extend_empty.symm ?_ h
  rintro before node _ u rfl added
  obtain ⟨-, -, rfl⟩ := addNode_eq_ok_iff.1 added
  rw [withNode_extend]
  simp [Archive.withoutNulls]

/-- A fresh id is that of a numbered link. -/
theorem exists_freshLinkId (t : Topology) : ∃ n, t.freshLinkId = numberedLink n := by
  rw [freshLinkId]
  cases found : List.find? _ _ with
  | none => exact ⟨_, rfl⟩
  | some id =>
      obtain ⟨i, -, rfl⟩ := List.mem_map.1 (List.mem_of_find?_eq_some found)
      exact ⟨_, rfl⟩

/-- A draft adds a link that it asks for. -/
theorem addDraft_eq_ok {draft : LinkDraft} {id : String} (h : t.addDraft draft = .ok (id, t')) :
    ∃ link, draft.Makes link ∧ link.id = id ∧ t.addLink link = .ok t' := by
  rw [addDraft_eq] at h
  obtain ⟨u, added, same⟩ := bind_eq_ok_iff.1 h
  cases same
  refine ⟨_, ⟨?_, ?_, rfl, rfl, rfl⟩, rfl, added⟩
  · intro given named
    rw [named, Option.getD_some]
  · intro unnamed
    rw [unnamed, Option.getD_none]
    exact t.exists_freshLinkId

theorem addLinks_cons_eq_ok {draft : LinkDraft} {drafts : List LinkDraft} {ids : List String}
    (h : t.addLinks (draft :: drafts) = .ok (ids, t')) :
    ∃ link u rest, draft.Makes link ∧ t.addLink link = .ok u ∧
      u.addLinks drafts = .ok (rest, t') ∧ ids = link.id :: rest := by
  rw [addLinks_cons] at h
  obtain ⟨⟨id, u⟩, first, h⟩ := bind_eq_ok_iff.1 h
  obtain ⟨⟨rest, v⟩, later, same⟩ := bind_eq_ok_iff.1 h
  cases same
  obtain ⟨link, makes, rfl, added⟩ := addDraft_eq_ok first
  exact ⟨link, u, rest, makes, added, later, rfl⟩

/-- **Links that are added extend a drawing**, each by a link that its draft asks for. -/
theorem addLinks_eq_extend {drafts : List LinkDraft} {ids : List String}
    (h : t.addLinks drafts = .ok (ids, t')) :
    ∃ links, List.Forall₂ LinkDraft.Makes drafts links ∧ ids = links.map (·.id) ∧
      t' = t.extend (Archive.withoutNulls ⟨[], [], links⟩) := by
  induction drafts generalizing t ids with
  | nil =>
      cases h
      exact ⟨[], .nil, rfl, extend_empty.symm⟩
  | cons draft drafts ih =>
      obtain ⟨link, u, rest, makes, added, later, rfl⟩ := addLinks_cons_eq_ok h
      obtain ⟨-, -, rfl⟩ := addLink_eq_ok_iff.1 added
      obtain ⟨links, others, rfl, rfl⟩ := ih later
      refine ⟨link :: links, .cons makes others, rfl, ?_⟩
      simp [Archive.withoutNulls, extend_links, withLink, Link.withoutNulls]

namespace WellFormed

variable (wf : t.WellFormed)
include wf

/-- **Groups that are added extend a drawing.** -/
theorem addGroups_eq_extend {groups : List Group} (h : t.addGroups groups = .ok t') :
    t' = t.extend (Archive.withoutNulls ⟨[], groups.map (·.toGroupRecord), []⟩) := by
  rw [addGroups_eq_foldlM] at h
  refine (foldlM_collects (P := fun before u => u.WellFormed ∧
    u = t.extend (Archive.withoutNulls ⟨[], before.map (·.toGroupRecord), []⟩))
    ⟨wf, extend_empty.symm⟩ ?_ h).2
  rintro before group _ u ⟨wf, rfl⟩ added
  refine ⟨wf.addGroup added, ?_⟩
  obtain ⟨fresh, inside, rfl⟩ := addGroup_eq_ok_iff.1 added
  rw [withGroup_extend wf fresh inside]
  simp [Archive.withoutNulls]

/-! ## Batches keep the invariant -/

theorem addGroups {groups : List Group} (h : t.addGroups groups = .ok t') : t'.WellFormed :=
  foldlM_keeps (fun _ _ _ wf => wf.addGroup) wf (addGroups_eq_foldlM t groups ▸ h)

theorem addNodes {nodes : List Node} (h : t.addNodes nodes = .ok t') : t'.WellFormed :=
  foldlM_keeps (fun _ _ _ wf => wf.addNode) wf (addNodes_eq_foldlM t nodes ▸ h)

theorem addLinks {drafts : List LinkDraft} {ids : List String}
    (h : t.addLinks drafts = .ok (ids, t')) : t'.WellFormed := by
  induction drafts generalizing t ids with
  | nil =>
      cases h
      exact wf
  | cons draft drafts ih =>
      obtain ⟨link, u, rest, -, added, later, -⟩ := addLinks_cons_eq_ok h
      exact ih (wf.addLink added) later

theorem setProperties {id : String} {changes : Properties}
    (h : t.setProperties id changes = .ok t') : t'.WellFormed :=
  foldlM_keeps (fun _ _ _ wf => wf.setProperty) wf (setProperties_eq_foldlM t id changes ▸ h)

theorem removeAll (ids : List String) : (t.removeAll ids).2.2.WellFormed := by
  rw [removeAll_eq_run]
  exact wf.run _

end WellFormed

end Topology

end CloudCanvas
