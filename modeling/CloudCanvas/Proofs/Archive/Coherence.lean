import CloudCanvas.Proofs.Topology.Reachable

/-!
# Which archives are restored

An archive is restored record by record, and each record is checked against those before it.
Seen as a whole an archive must not use an id twice, must have each group behind the group
that contains it, and must refer to nothing that it does not have; then, and only then, it is
restored, to the drawing that has its records.

## Main definitions

* `Topology.archive`: the records of a drawing.
* `Archive.withoutNulls`: records without the properties that have no value.
* `Archive.Coherent`: the archives that can be restored.
* `Archive.Describes`: a drawing has the records of an archive.

The main statements are `Archive.exists_restore_iff_coherent` and
`Archive.describes_of_restore`.
-/

namespace CloudCanvas

/-! ## Records -/

/-- A node without the properties that have no value. -/
def Node.withoutNulls (node : Node) : Node :=
  { node with properties := node.properties.withoutNulls }

/-- A group without the properties that have no value. -/
def GroupRecord.withoutNulls (group : GroupRecord) : GroupRecord :=
  { group with properties := group.properties.withoutNulls }

/-- A link without the properties that have no value. -/
def Link.withoutNulls (link : Link) : Link :=
  { link with properties := link.properties.withoutNulls }

namespace Topology

/-- The records of a drawing. -/
def archive (t : Topology) : Archive :=
  ⟨t.nodes, t.groups.map (·.toGroupRecord), t.links⟩

variable {t : Topology}

theorem archive?_eq_some_iff {a : Archive} :
    t.archive? = some a ↔ t.isEmpty = false ∧ a = t.archive := by
  rw [archive?]
  cases t.isEmpty with
  | true => simp
  | false => simp [archive, eq_comm]

/-! A drawing with an element more has a record more. -/

theorem archive_withGroup (record : GroupRecord) (childGroups childNodes : List String) :
    (t.withGroup { record with childGroups, childNodes }).archive =
      { t.archive with groups := t.archive.groups ++ [record.withoutNulls] } := by
  simp [archive, withGroup, GroupRecord.withoutNulls]

theorem archive_withNode (node : Node) : (t.withNode node).archive =
    { t.archive with nodes := t.archive.nodes ++ [node.withoutNulls] } := by
  simp [archive, withNode, Node.withoutNulls]

theorem archive_withLink (link : Link) : (t.withLink link).archive =
    { t.archive with links := t.archive.links ++ [link.withoutNulls] } := rfl

end Topology

namespace Archive

/-- The ids of the stored groups. -/
def groupIds (a : Archive) : List String :=
  a.groups.map (·.id)

/-- The ids of the stored nodes and groups. -/
def elementIds (a : Archive) : List String :=
  a.nodes.map (·.id) ++ a.groupIds

/-- The ids of the stored nodes, groups and links. -/
def ids (a : Archive) : List String :=
  a.elementIds ++ a.links.map (·.id)

/-- An archive without the properties that have no value. -/
def withoutNulls (a : Archive) : Archive :=
  ⟨a.nodes.map Node.withoutNulls, a.groups.map GroupRecord.withoutNulls,
    a.links.map Link.withoutNulls⟩

/-- The group around each stored group is stored strictly before it. -/
def ParentsFirst (groups : List GroupRecord) : Prop :=
  ∀ before record after parent, groups = before ++ record :: after →
    record.parent = some parent → parent ∈ before.map (·.id)

/-- **The archives that can be restored.** -/
structure Coherent (a : Archive) : Prop where
  ids_nodup : a.ids.Nodup
  parents_first : ParentsFirst a.groups
  node_group : ∀ node ∈ a.nodes, ∀ parent, node.group = some parent → parent ∈ a.groupIds
  link_ends : ∀ link ∈ a.links, link.source ∈ a.elementIds ∧ link.target ∈ a.elementIds

/-! ## One record more -/

/-- An archive has no element with the id of a group, and has the group around it. -/
structure AdmitsGroup (a : Archive) (record : GroupRecord) : Prop where
  fresh : record.id ∉ a.ids
  parent : ∀ parent, record.parent = some parent → parent ∈ a.groupIds

/-- An archive has no element with the id of a node, and has the group around it. -/
structure AdmitsNode (a : Archive) (node : Node) : Prop where
  fresh : node.id ∉ a.ids
  parent : ∀ parent, node.group = some parent → parent ∈ a.groupIds

/-- An archive has no element with the id of a link, and has both its ends. -/
structure AdmitsLink (a : Archive) (link : Link) : Prop where
  fresh : link.id ∉ a.ids
  ends : link.source ∈ a.elementIds ∧ link.target ∈ a.elementIds

variable {nodes : List Node} {groups : List GroupRecord} {links : List Link}

@[simp] theorem groupIds_mk : groupIds ⟨nodes, groups, links⟩ = groups.map (·.id) := rfl

@[simp] theorem elementIds_mk : elementIds ⟨nodes, groups, links⟩ =
    nodes.map (·.id) ++ groups.map (·.id) := rfl

theorem parentsFirst_concat {record : GroupRecord} : ParentsFirst (groups ++ [record]) ↔
    ParentsFirst groups ∧ ∀ p, record.parent = some p → p ∈ groups.map (·.id) := by
  constructor
  · intro h
    refine ⟨fun before other after p split => ?_, fun p => h groups record [] p rfl⟩
    exact h before other (after ++ [record]) p (by simp [split])
  · intro ⟨earlier, last⟩ before other after p split parent
    -- the group in question is the last one, or the last one stands behind it
    rcases List.eq_nil_or_concat' after with rfl | ⟨between, final, rfl⟩
    · obtain ⟨rfl, same⟩ := List.append_inj' split rfl
      obtain rfl := List.singleton_inj.1 same
      exact last p parent
    · rw [← List.cons_append, ← List.append_assoc] at split
      exact earlier before other between p (List.append_inj' split rfl).1 parent

theorem coherent_empty : Coherent ⟨[], [], []⟩ where
  ids_nodup := .nil
  parents_first before record after parent split := by simp at split
  node_group := by simp
  link_ends := by simp

theorem coherent_concat_group {record : GroupRecord} :
    Coherent ⟨[], groups ++ [record], []⟩ ↔
      Coherent ⟨[], groups, []⟩ ∧ AdmitsGroup ⟨[], groups, []⟩ record := by
  have ids : (Archive.ids ⟨[], groups ++ [record], []⟩).Perm
      (record.id :: Archive.ids ⟨[], groups, []⟩) := by
    simp [Archive.ids]
  constructor
  · intro h
    obtain ⟨fresh, nodup⟩ := List.nodup_cons.1 (ids.nodup_iff.1 h.ids_nodup)
    obtain ⟨earlier, last⟩ := parentsFirst_concat.1 h.parents_first
    exact ⟨⟨nodup, earlier, by simp, by simp⟩, fresh, last⟩
  · intro ⟨h, fresh, last⟩
    exact ⟨ids.nodup_iff.2 (List.nodup_cons.2 ⟨fresh, h.ids_nodup⟩),
      parentsFirst_concat.2 ⟨h.parents_first, last⟩, by simp, by simp⟩

theorem coherent_concat_node {node : Node} : Coherent ⟨nodes ++ [node], groups, []⟩ ↔
    Coherent ⟨nodes, groups, []⟩ ∧ AdmitsNode ⟨nodes, groups, []⟩ node := by
  have ids : (Archive.ids ⟨nodes ++ [node], groups, []⟩).Perm
      (node.id :: Archive.ids ⟨nodes, groups, []⟩) := by
    simp [Archive.ids]
  constructor
  · intro h
    obtain ⟨fresh, nodup⟩ := List.nodup_cons.1 (ids.nodup_iff.1 h.ids_nodup)
    obtain ⟨before, last⟩ := List.forall_mem_append.1 h.node_group
    exact ⟨⟨nodup, h.parents_first, before, by simp⟩, fresh, last node List.mem_cons_self⟩
  · intro ⟨h, fresh, last⟩
    refine ⟨ids.nodup_iff.2 (List.nodup_cons.2 ⟨fresh, h.ids_nodup⟩), h.parents_first, ?_,
      by simp⟩
    exact List.forall_mem_append.2 ⟨h.node_group, by simpa using last⟩

theorem coherent_concat_link {link : Link} : Coherent ⟨nodes, groups, links ++ [link]⟩ ↔
    Coherent ⟨nodes, groups, links⟩ ∧ AdmitsLink ⟨nodes, groups, links⟩ link := by
  have ids : (Archive.ids ⟨nodes, groups, links ++ [link]⟩).Perm
      (link.id :: Archive.ids ⟨nodes, groups, links⟩) := by
    rw [Archive.ids, List.map_append, ← List.append_assoc]
    exact List.perm_append_singleton _ _
  constructor
  · intro h
    obtain ⟨fresh, nodup⟩ := List.nodup_cons.1 (ids.nodup_iff.1 h.ids_nodup)
    obtain ⟨before, last⟩ := List.forall_mem_append.1 h.link_ends
    exact ⟨⟨nodup, h.parents_first, h.node_group, before⟩, fresh, last link List.mem_cons_self⟩
  · intro ⟨h, fresh, last⟩
    refine ⟨ids.nodup_iff.2 (List.nodup_cons.2 ⟨fresh, h.ids_nodup⟩), h.parents_first,
      h.node_group, ?_⟩
    exact List.forall_mem_append.2 ⟨h.link_ends, by simpa using last⟩

theorem Coherent.withoutLinks (h : Coherent ⟨nodes, groups, links⟩) :
    Coherent ⟨nodes, groups, []⟩ where
  ids_nodup := by
    simpa [ids] using (List.nodup_append.1 h.ids_nodup).1
  parents_first := h.parents_first
  node_group := h.node_group
  link_ends := by simp

theorem Coherent.groupsAlone (h : Coherent ⟨nodes, groups, []⟩) :
    Coherent ⟨[], groups, []⟩ where
  ids_nodup := by
    have nodup := (List.nodup_append.1 h.ids_nodup).1
    simpa [ids] using (List.nodup_append.1 nodup).2.1
  parents_first := h.parents_first
  node_group := by simp
  link_ends := by simp

/-! ## The drawing that an archive describes -/

/-- A drawing has the records of an archive, apart from properties that have no value. -/
def Describes (a : Archive) (t : Topology) : Prop :=
  t.archive = a.withoutNulls

variable {a b : Archive} {t t' : Topology}

theorem describes_empty : Describes ⟨[], [], []⟩ ∅ := rfl

namespace Describes

variable (h : a.Describes t)
include h

theorem groupIds_eq : t.groups.map (·.id) = a.groupIds := by
  have same := congrArg Archive.groupIds h
  simpa [Topology.archive, withoutNulls, groupIds, GroupRecord.withoutNulls,
    Function.comp_def] using same

theorem elementIds_eq : t.elementIds = a.elementIds := by
  have same := congrArg (fun a : Archive => a.nodes.map (·.id)) h
  rw [Topology.elementIds, h.groupIds_eq, elementIds]
  simpa [Topology.archive, withoutNulls, Node.withoutNulls, Function.comp_def] using same

theorem ids_eq : t.ids = a.ids := by
  have same := congrArg (fun a : Archive => a.links.map (·.id)) h
  rw [Topology.ids, h.elementIds_eq, ids]
  simpa [Topology.archive, withoutNulls, Link.withoutNulls, Function.comp_def] using same

/-- A group is added to a drawing if the archive that describes the drawing admits it. -/
theorem addGroup_eq_ok_iff {record : GroupRecord} : b.addGroup t record = .ok t' ↔
    a.AdmitsGroup record ∧
      t' = t.withGroup { record with childGroups := [], childNodes := [] } := by
  rw [Archive.addGroup_eq_ok_iff, Topology.addGroup_eq_ok_iff, h.ids_eq, h.groupIds_eq]
  exact ⟨fun ⟨fresh, parent, eq⟩ => ⟨⟨fresh, parent⟩, eq⟩,
    fun ⟨⟨fresh, parent⟩, eq⟩ => ⟨fresh, parent, eq⟩⟩

/-- A node is added to a drawing if the archive that describes the drawing admits it. -/
theorem addNode_eq_ok_iff {node : Node} :
    t.addNode node = .ok t' ↔ a.AdmitsNode node ∧ t' = t.withNode node := by
  rw [Topology.addNode_eq_ok_iff, h.ids_eq, h.groupIds_eq]
  exact ⟨fun ⟨fresh, parent, eq⟩ => ⟨⟨fresh, parent⟩, eq⟩,
    fun ⟨⟨fresh, parent⟩, eq⟩ => ⟨fresh, parent, eq⟩⟩

/-- A link is added to a drawing if the archive that describes the drawing admits it. -/
theorem addLink_eq_ok_iff {link : Link} :
    t.addLink link = .ok t' ↔ a.AdmitsLink link ∧ t' = t.withLink link := by
  rw [Topology.addLink_eq_ok_iff, h.ids_eq, h.elementIds_eq]
  exact ⟨fun ⟨fresh, ends, eq⟩ => ⟨⟨fresh, ends⟩, eq⟩,
    fun ⟨⟨fresh, ends⟩, eq⟩ => ⟨fresh, ends, eq⟩⟩

end Describes

/-! ## One kind of record after another -/

section Groups

variable (b)

private theorem describes_addGroup (before : List GroupRecord) (record : GroupRecord)
    (t t' : Topology) (h : Describes ⟨[], before, []⟩ t) (added : b.addGroup t record = .ok t') :
    Describes ⟨[], before ++ [record], []⟩ t' := by
  obtain ⟨-, rfl⟩ := h.addGroup_eq_ok_iff.1 added
  rw [Describes, Topology.archive_withGroup, h]
  simp [withoutNulls]

theorem describes_of_groups (done : groups.foldlM b.addGroup ∅ = .ok t) :
    Describes ⟨[], groups, []⟩ t :=
  foldlM_collects (P := fun before t => Describes ⟨[], before, []⟩ t) describes_empty
    (describes_addGroup b) done

/-- Groups can be added in their order if they are coherent by themselves. -/
theorem exists_groups_iff_coherent :
    (∃ t, groups.foldlM b.addGroup ∅ = .ok t) ↔ Coherent ⟨[], groups, []⟩ :=
  exists_foldlM_iff (fun before t => Describes ⟨[], before, []⟩ t)
    (fun before => Coherent ⟨[], before, []⟩) describes_empty coherent_empty
    (fun _ _ => coherent_concat_group) (describes_addGroup b)
    fun _ _ _ h => by simp [h.addGroup_eq_ok_iff]

end Groups

section Nodes

variable (h : Describes ⟨[], groups, []⟩ t)
include h

omit h in
private theorem describes_addNode (before : List Node) (node : Node) (t t' : Topology)
    (h : Describes ⟨before, groups, []⟩ t) (added : t.addNode node = .ok t') :
    Describes ⟨before ++ [node], groups, []⟩ t' := by
  obtain ⟨-, rfl⟩ := h.addNode_eq_ok_iff.1 added
  rw [Describes, Topology.archive_withNode, h]
  simp [withoutNulls]

theorem describes_of_nodes (done : nodes.foldlM Topology.addNode t = .ok t') :
    Describes ⟨nodes, groups, []⟩ t' :=
  foldlM_collects (P := fun before t => Describes ⟨before, groups, []⟩ t) h
    describes_addNode done

/-- Behind their groups nodes can be added in their order if both are coherent. -/
theorem exists_nodes_iff_coherent (coherent : Coherent ⟨[], groups, []⟩) :
    (∃ t', nodes.foldlM Topology.addNode t = .ok t') ↔ Coherent ⟨nodes, groups, []⟩ :=
  exists_foldlM_iff (fun before t => Describes ⟨before, groups, []⟩ t)
    (fun before => Coherent ⟨before, groups, []⟩) h coherent
    (fun _ _ => coherent_concat_node) describes_addNode
    fun _ _ _ h => by simp [h.addNode_eq_ok_iff]

end Nodes

section Links

variable (h : Describes ⟨nodes, groups, []⟩ t)
include h

omit h in
private theorem describes_addLink (before : List Link) (link : Link) (t t' : Topology)
    (h : Describes ⟨nodes, groups, before⟩ t) (added : t.addLink link = .ok t') :
    Describes ⟨nodes, groups, before ++ [link]⟩ t' := by
  obtain ⟨-, rfl⟩ := h.addLink_eq_ok_iff.1 added
  rw [Describes, Topology.archive_withLink, h]
  simp [withoutNulls]

theorem describes_of_links (done : links.foldlM Topology.addLink t = .ok t') :
    Describes ⟨nodes, groups, links⟩ t' :=
  foldlM_collects (P := fun before t => Describes ⟨nodes, groups, before⟩ t) h
    describes_addLink done

/-- Behind their ends links can be added in their order if all are coherent. -/
theorem exists_links_iff_coherent (coherent : Coherent ⟨nodes, groups, []⟩) :
    (∃ t', links.foldlM Topology.addLink t = .ok t') ↔ Coherent ⟨nodes, groups, links⟩ :=
  exists_foldlM_iff (fun before t => Describes ⟨nodes, groups, before⟩ t)
    (fun before => Coherent ⟨nodes, groups, before⟩) h coherent
    (fun _ _ => coherent_concat_link) describes_addLink
    fun _ _ _ h => by simp [h.addLink_eq_ok_iff]

end Links

/-! ## All records -/

/-- **What an archive is restored to has its records.** -/
theorem describes_of_restore (h : a.restore = .ok t) : a.Describes t := by
  obtain ⟨withGroups, withNodes, hGroups, hNodes, hLinks⟩ := restore_eq_ok_iff.1 h
  have groups := describes_of_groups a hGroups
  have nodes := describes_of_nodes groups hNodes
  exact describes_of_links nodes hLinks

/-- **Exactly the coherent archives are restored.** -/
theorem exists_restore_iff_coherent : (∃ t, a.restore = .ok t) ↔ a.Coherent := by
  constructor
  · intro ⟨t, restored⟩
    obtain ⟨withGroups, withNodes, hGroups, hNodes, hLinks⟩ := restore_eq_ok_iff.1 restored
    have groups := describes_of_groups a hGroups
    have coherent := (exists_groups_iff_coherent a).1 ⟨_, hGroups⟩
    have nodes := describes_of_nodes groups hNodes
    have coherent := (exists_nodes_iff_coherent groups coherent).1 ⟨_, hNodes⟩
    exact (exists_links_iff_coherent nodes coherent).1 ⟨_, hLinks⟩
  · intro coherent
    have withNodes : Coherent ⟨a.nodes, a.groups, []⟩ := coherent.withoutLinks
    have withGroups : Coherent ⟨[], a.groups, []⟩ := withNodes.groupsAlone
    obtain ⟨u, hGroups⟩ := (exists_groups_iff_coherent a).2 withGroups
    have groups := describes_of_groups a hGroups
    obtain ⟨v, hNodes⟩ := (exists_nodes_iff_coherent groups withGroups).2 withNodes
    have nodes := describes_of_nodes groups hNodes
    obtain ⟨t, hLinks⟩ := (exists_links_iff_coherent nodes withNodes).2 coherent
    exact ⟨t, restore_eq_ok_iff.2 ⟨u, v, hGroups, hNodes, hLinks⟩⟩

end Archive

/-! ## Loading -/

namespace Topology

variable {a : Archive} {t : Topology}

theorem load_fst_eq_ok_iff {summary : LoadSummary} : (t.load a).1 = .ok summary ↔
    a.restore = .ok (t.load a).2 ∧ summary = a.summary := by
  rw [load]
  cases a.restore <;> simp [eq_comm]

theorem load_fst_eq_error_iff {e : IntegrityError} :
    (t.load a).1 = .error e ↔ a.restore = .error e := by
  rw [load]
  cases a.restore <;> simp

end Topology

end CloudCanvas
