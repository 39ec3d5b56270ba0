import CloudCanvas.Proofs.Archive.Coherence

/-!
# Why an archive is not restored

An archive that is not coherent is refused at its first record that does not fit behind
those before it: groups come before nodes and nodes before links.  A group is first looked at
for the group around it and then for its id, nodes and links are first looked at for their
ids.  A group around a group that is not there yet may be stored further on, as the group
itself or one behind it, or not at all, and the error says which.

## Main definitions

* `Archive.RefusesGroup`, `Archive.RefusesNode`, `Archive.RefusesLink`: why a record does not
  fit behind the records of an archive.
* `Archive.FirstFault`: why the first record of an archive that does not fit does not fit.
* `Archive.LacksParent`: that record is a group for want of the group around it.

The main statements are `Archive.restore_eq_error_iff` and `Archive.load_iff_coherent`.
-/

namespace CloudCanvas

namespace Archive

/-! ## One record -/

/-- Why a group does not fit behind the records of an archive, when a whole archive is being
restored. -/
inductive RefusesGroup (a whole : Archive) (record : GroupRecord) : IntegrityError → Prop
  | parentLater {parent : String} (inside : record.parent = some parent)
      (absent : parent ∉ a.groupIds) (stored : parent ∈ whole.groupIds) :
      RefusesGroup a whole record (.parentNotYetLoaded record.id parent)
  | parentMissing {parent : String} (inside : record.parent = some parent)
      (absent : parent ∉ a.groupIds) (missing : parent ∉ whole.groupIds) :
      RefusesGroup a whole record (.unknownParent record.id parent)
  | twice (there : ∀ parent, record.parent = some parent → parent ∈ a.groupIds)
      (used : record.id ∈ a.ids) : RefusesGroup a whole record (.duplicateId record.id)

/-- Why a node does not fit behind the records of an archive. -/
inductive RefusesNode (a : Archive) (node : Node) : IntegrityError → Prop
  | twice (used : node.id ∈ a.ids) : RefusesNode a node (.duplicateId node.id)
  | parentMissing {parent : String} (fresh : node.id ∉ a.ids) (inside : node.group = some parent)
      (missing : parent ∉ a.groupIds) : RefusesNode a node (.unknownParent node.id parent)

/-- Why a link does not fit behind the records of an archive. -/
inductive RefusesLink (a : Archive) (link : Link) : IntegrityError → Prop
  | twice (used : link.id ∈ a.ids) : RefusesLink a link (.duplicateId link.id)
  | sourceMissing (fresh : link.id ∉ a.ids) (missing : link.source ∉ a.elementIds) :
      RefusesLink a link (.danglingEndpoint link.id link.source)
  | targetMissing (fresh : link.id ∉ a.ids) (there : link.source ∈ a.elementIds)
      (missing : link.target ∉ a.elementIds) :
      RefusesLink a link (.danglingEndpoint link.id link.target)

namespace Describes

variable {a whole : Archive} {t : Topology} {e : IntegrityError} (h : a.Describes t)
include h

theorem missingParent_eq_some_iff {parent : Option String} {p : String} :
    t.missingParent parent = some p ↔ parent = some p ∧ p ∉ a.groupIds := by
  rw [Topology.missingParent_eq_some_iff, h.groupIds_eq]

theorem addGroup_eq_error_iff {record : GroupRecord} :
    whole.addGroup t record = .error e ↔ RefusesGroup a whole record e := by
  have stored : ∀ parent, (whole.groups.map (·.id)).contains parent = true ↔
      parent ∈ whole.groupIds := fun parent => by rw [groupIds, List.contains_iff_mem]
  rw [Archive.addGroup]
  -- the group around it is looked for first, so behind that only the id is left to be wrong
  cases missing : t.missingParent record.parent with
  | some parent =>
      obtain ⟨inside, absent⟩ := h.missingParent_eq_some_iff.1 missing
      simp only [Except.error.injEq, parentFault, stored]
      constructor
      · intro fault
        split at fault
        · exact fault ▸ .parentLater inside absent ‹_›
        · exact fault ▸ .parentMissing inside absent ‹_›
      · intro refused
        cases refused with
        | parentLater inside' _ later =>
            obtain rfl := Option.some.inj (inside.symm.trans inside')
            simp [later]
        | parentMissing inside' _ missing =>
            obtain rfl := Option.some.inj (inside.symm.trans inside')
            simp [missing]
        | twice there => exact absurd (there parent inside) absent
  | none =>
      have there := Topology.missingParent_eq_none_iff.1 missing
      rw [h.groupIds_eq] at there
      simp only [Topology.addGroup_eq_error_iff, h.ids_eq, missing]
      constructor
      · rintro (⟨used, rfl⟩ | ⟨-, _, none, -⟩)
        · exact .twice there used
        · cases none
      · intro refused
        cases refused with
        | parentLater inside absent => exact absurd (there _ inside) absent
        | parentMissing inside absent => exact absurd (there _ inside) absent
        | twice _ used => exact .inl ⟨used, rfl⟩

theorem addNode_eq_error_iff {node : Node} :
    t.addNode node = .error e ↔ RefusesNode a node e := by
  rw [Topology.addNode_eq_error_iff, h.ids_eq]
  simp only [h.missingParent_eq_some_iff]
  constructor
  · rintro (⟨used, rfl⟩ | ⟨fresh, parent, ⟨inside, missing⟩, rfl⟩)
    · exact .twice used
    · exact .parentMissing fresh inside missing
  · intro refused
    cases refused with
    | twice used => exact .inl ⟨used, rfl⟩
    | parentMissing fresh inside missing =>
        exact .inr ⟨fresh, _, ⟨inside, missing⟩, rfl⟩

theorem addLink_eq_error_iff {link : Link} :
    t.addLink link = .error e ↔ RefusesLink a link e := by
  rw [Topology.addLink_eq_error_iff, h.ids_eq]
  simp only [Topology.missingEndpoint_eq_some_iff, h.elementIds_eq]
  constructor
  · rintro (⟨used, rfl⟩ | ⟨fresh, id, ⟨source, rfl⟩ | ⟨source, target, rfl⟩, rfl⟩)
    · exact .twice used
    · exact .sourceMissing fresh source
    · exact .targetMissing fresh source target
  · intro refused
    cases refused with
    | twice used => exact .inl ⟨used, rfl⟩
    | sourceMissing fresh source => exact .inr ⟨fresh, _, .inl ⟨source, rfl⟩, rfl⟩
    | targetMissing fresh source target =>
        exact .inr ⟨fresh, _, .inr ⟨source, target, rfl⟩, rfl⟩

end Describes

/-! ## The first record that does not fit -/

/-- Why the first record of an archive that does not fit does not fit.  What is stored before
it is coherent. -/
inductive FirstFault (a : Archive) (e : IntegrityError) : Prop
  | group {before after : List GroupRecord} {record : GroupRecord}
      (split : a.groups = before ++ record :: after) (sound : Coherent ⟨[], before, []⟩)
      (refused : RefusesGroup ⟨[], before, []⟩ a record e)
  | node {before after : List Node} {node : Node} (split : a.nodes = before ++ node :: after)
      (sound : Coherent ⟨before, a.groups, []⟩)
      (refused : RefusesNode ⟨before, a.groups, []⟩ node e)
  | link {before after : List Link} {link : Link} (split : a.links = before ++ link :: after)
      (sound : Coherent ⟨a.nodes, a.groups, before⟩)
      (refused : RefusesLink ⟨a.nodes, a.groups, before⟩ link e)

variable {a : Archive} {t u : Topology} {e : IntegrityError}

theorem restore_eq_error_iff_pass : a.restore = .error e ↔
    a.groups.foldlM a.addGroup ∅ = .error e ∨
      ∃ u, a.groups.foldlM a.addGroup ∅ = .ok u ∧
        (a.nodes.foldlM Topology.addNode u = .error e ∨
          ∃ v, a.nodes.foldlM Topology.addNode u = .ok v ∧
            a.links.foldlM Topology.addLink v = .error e) := by
  simp only [restore, bind_eq_error_iff]

/-- The pass over the groups fails at the first of them that does not fit. -/
theorem groups_eq_error_iff : a.groups.foldlM a.addGroup ∅ = .error e ↔
    ∃ before record after, a.groups = before ++ record :: after ∧
      Coherent ⟨[], before, []⟩ ∧ RefusesGroup ⟨[], before, []⟩ a record e :=
  foldlM_eq_error_iff_refused (fun before t => Describes ⟨[], before, []⟩ t)
    (fun before => Coherent ⟨[], before, []⟩) (fun _ => exists_groups_iff_coherent a)
    (fun _ _ => describes_of_groups a) fun _ _ _ _ h => h.addGroup_eq_error_iff

/-- Behind sound groups the pass over the nodes fails at the first of them that does not
fit. -/
theorem nodes_eq_error_iff (h : Describes ⟨[], a.groups, []⟩ t)
    (groups : Coherent ⟨[], a.groups, []⟩) : a.nodes.foldlM Topology.addNode t = .error e ↔
      ∃ before node after, a.nodes = before ++ node :: after ∧
        Coherent ⟨before, a.groups, []⟩ ∧ RefusesNode ⟨before, a.groups, []⟩ node e :=
  foldlM_eq_error_iff_refused (fun before t => Describes ⟨before, a.groups, []⟩ t)
    (fun before => Coherent ⟨before, a.groups, []⟩)
    (fun _ => exists_nodes_iff_coherent h groups) (fun _ _ => describes_of_nodes h)
    fun _ _ _ _ h => h.addNode_eq_error_iff

/-- Behind sound groups and nodes the pass over the links fails at the first of them that
does not fit. -/
theorem links_eq_error_iff (h : Describes ⟨a.nodes, a.groups, []⟩ t)
    (nodes : Coherent ⟨a.nodes, a.groups, []⟩) : a.links.foldlM Topology.addLink t = .error e ↔
      ∃ before link after, a.links = before ++ link :: after ∧
        Coherent ⟨a.nodes, a.groups, before⟩ ∧
          RefusesLink ⟨a.nodes, a.groups, before⟩ link e :=
  foldlM_eq_error_iff_refused (fun before t => Describes ⟨a.nodes, a.groups, before⟩ t)
    (fun before => Coherent ⟨a.nodes, a.groups, before⟩)
    (fun _ => exists_links_iff_coherent h nodes) (fun _ _ => describes_of_links h)
    fun _ _ _ _ h => h.addLink_eq_error_iff

/-- **An archive that is not restored is refused for its first fault.** -/
theorem restore_eq_error_iff : a.restore = .error e ↔ a.FirstFault e := by
  rw [restore_eq_error_iff_pass, groups_eq_error_iff]
  constructor
  · rintro (⟨before, record, after, split, sound, refused⟩ | ⟨u, hGroups, later⟩)
    · exact .group split sound refused
    have groups := (exists_groups_iff_coherent a).1 ⟨u, hGroups⟩
    have withGroups := describes_of_groups a hGroups
    rw [nodes_eq_error_iff withGroups groups] at later
    rcases later with ⟨before, node, after, split, sound, refused⟩ | ⟨v, hNodes, failed⟩
    · exact .node split sound refused
    have nodes := (exists_nodes_iff_coherent withGroups groups).1 ⟨v, hNodes⟩
    have withNodes := describes_of_nodes withGroups hNodes
    obtain ⟨before, link, after, split, sound, refused⟩ :=
      (links_eq_error_iff withNodes nodes).1 failed
    exact .link split sound refused
  · intro fault
    -- A fault in a later list presupposes that the passes before it succeeded.
    cases fault with
    | group split sound refused => exact .inl ⟨_, _, _, split, sound, refused⟩
    | node split sound refused =>
        have groups := sound.groupsAlone
        obtain ⟨u, hGroups⟩ := (exists_groups_iff_coherent a).2 groups
        have withGroups := describes_of_groups a hGroups
        have failed := (nodes_eq_error_iff withGroups groups).2 ⟨_, _, _, split, sound, refused⟩
        exact .inr ⟨u, hGroups, .inl failed⟩
    | link split sound refused =>
        have nodes := sound.withoutLinks
        have groups := nodes.groupsAlone
        obtain ⟨u, hGroups⟩ := (exists_groups_iff_coherent a).2 groups
        have withGroups := describes_of_groups a hGroups
        obtain ⟨v, hNodes⟩ := (exists_nodes_iff_coherent withGroups groups).2 nodes
        have withNodes := describes_of_nodes withGroups hNodes
        have failed := (links_eq_error_iff withNodes nodes).2 ⟨_, _, _, split, sound, refused⟩
        exact .inr ⟨u, hGroups, .inr ⟨v, hNodes, failed⟩⟩

/-! ## Groups without the group around them -/

/-- The first record of an archive that does not fit is a group, because the group around it
is not stored before it; behind it there are some groups more. -/
structure LacksParent (a : Archive) (record : GroupRecord) (parent : String)
    (after : List GroupRecord) : Prop where
  inside : record.parent = some parent
  behind : ∃ before, a.groups = before ++ record :: after ∧ Coherent ⟨[], before, []⟩ ∧
    parent ∉ before.map (·.id)

namespace LacksParent

variable {record : GroupRecord} {parent : String} {after : List GroupRecord}

/-- A group that is not stored before another is stored as that one, behind it or nowhere. -/
theorem mem_groupIds_iff (lacks : a.LacksParent record parent after) :
    parent ∈ a.groupIds ↔ parent ∈ (record :: after).map (·.id) := by
  obtain ⟨before, split, -, absent⟩ := lacks.behind
  rw [groupIds, split, List.map_append, List.mem_append]
  simp [absent]

theorem restore_eq (lacks : a.LacksParent record parent after) :
    a.restore = .error (a.parentFault record.id parent) := by
  obtain ⟨before, split, sound, absent⟩ := lacks.behind
  refine restore_eq_error_iff.2 (.group split sound ?_)
  rw [parentFault]
  split
  · rename_i stored
    exact .parentLater lacks.inside absent (List.contains_iff_mem.1 stored)
  · rename_i stored
    exact .parentMissing lacks.inside absent (fun mem => stored (List.contains_iff_mem.2 mem))

end LacksParent

/-- **Exactly the coherent archives load**, and give what does not depend on the drawing they
are loaded into; any other leaves an empty drawing.  If it is refused at a group, for want of
the group around it, the error says whether that one is stored as the group itself or further
on, or is not stored. -/
theorem load_iff_coherent (a : Archive) (t : Topology) :
    ((∃ summary, (t.load a).1 = .ok summary) ↔ a.Coherent) ∧
      (∀ summary, (t.load a).1 = .ok summary →
        summary = ⟨a.nodes.length, a.groups.length, a.links.length⟩ ∧
          ∀ other : Topology, other.load a = t.load a) ∧
      (∀ e, (t.load a).1 = .error e →
        (t.load a).2.nodes = [] ∧ (t.load a).2.groups = [] ∧ (t.load a).2.links = []) ∧
      (∀ e, (t.load a).1 = .error e ↔ a.FirstFault e) ∧
      ∀ record parent after, a.LacksParent record parent after →
        ((t.load a).1 = .error (.parentNotYetLoaded record.id parent) ↔
          parent ∈ (record :: after).map (·.id)) ∧
        ((t.load a).1 = .error (.unknownParent record.id parent) ↔ parent ∉ a.groupIds) := by
  refine ⟨?_, ?_, ?_, fun e => Topology.load_fst_eq_error_iff.trans restore_eq_error_iff, ?_⟩
  · rw [← exists_restore_iff_coherent]
    constructor
    · intro ⟨summary, loaded⟩
      exact ⟨_, (Topology.load_fst_eq_ok_iff.1 loaded).1⟩
    · intro ⟨u, restored⟩
      exact ⟨a.summary, by rw [Topology.load, restored]⟩
  · intro summary loaded
    obtain ⟨-, rfl⟩ := Topology.load_fst_eq_ok_iff.1 loaded
    exact ⟨rfl, fun other => rfl⟩
  · intro e failed
    have restored := Topology.load_fst_eq_error_iff.1 failed
    rw [Topology.load, restored]
    exact ⟨rfl, rfl, rfl⟩
  · intro record parent after lacks
    have stored : parent ∈ a.groups.map (·.id) ↔ parent ∈ (record :: after).map (·.id) :=
      lacks.mem_groupIds_iff
    rw [Topology.load_fst_eq_error_iff, Topology.load_fst_eq_error_iff, lacks.restore_eq,
      parentFault, ← stored, groupIds]
    by_cases mem : parent ∈ a.groups.map (·.id) <;> simp [mem]

/-- A group inside itself is stored too late, a group inside no stored one has an unknown
parent, and a group behind the one around it loads over a drawing that used its id. -/
theorem load_iff_coherent_loop :
    let vnet : GroupRecord := ⟨"vnet", "virtual-network", ∅, none, none⟩
    let loop : GroupRecord := ⟨"loop", "subnet", ∅, some "loop", none⟩
    let lost : GroupRecord := ⟨"lost", "subnet", ∅, some "nowhere", none⟩
    let front : GroupRecord := ⟨"front", "subnet", ∅, some "vnet", none⟩
    let old : Topology := ⟨[⟨"front", "text-note", ∅, none, none⟩], [], []⟩
    (old.load ⟨[], [vnet, loop], []⟩).1 = .error (.parentNotYetLoaded "loop" "loop") ∧
      (old.load ⟨[], [vnet, loop], []⟩).2.groups = [] ∧
        (old.load ⟨[], [lost, loop], []⟩).1 = .error (.unknownParent "lost" "nowhere") ∧
          Coherent ⟨[], [vnet, front], []⟩ ∧
            (∅ : Topology).load ⟨[], [vnet, front], []⟩ =
              old.load ⟨[], [vnet, front], []⟩ := by
  intro vnet loop lost front old
  have looped := load_iff_coherent ⟨[], [vnet, loop], []⟩ old
  have outer : Coherent ⟨[], [] ++ [vnet], []⟩ :=
    coherent_concat_group.2 ⟨coherent_empty, by decide, by simp [vnet]⟩
  have late : (old.load ⟨[], [vnet, loop], []⟩).1 =
      .error (.parentNotYetLoaded "loop" "loop") :=
    (looped.2.2.2.2 loop "loop" [] ⟨rfl, [vnet], rfl, outer, by decide⟩).1.2 (by decide)
  have missing := load_iff_coherent ⟨[], [lost, loop], []⟩ old
  have unknown : (old.load ⟨[], [lost, loop], []⟩).1 =
      .error (.unknownParent "lost" "nowhere") :=
    (missing.2.2.2.2 lost "nowhere" [loop] ⟨rfl, [], rfl, coherent_empty, by decide⟩).2.2
      (by decide)
  have nested := load_iff_coherent ⟨[], [vnet, front], []⟩ old
  have loaded : (old.load ⟨[], [vnet, front], []⟩).1 = .ok ⟨0, 2, 0⟩ := by decide
  exact ⟨late, (looped.2.2.1 _ late).2.1, unknown, nested.1.1 ⟨_, loaded⟩,
    (nested.2.1 _ loaded).2 ∅⟩

end Archive

end CloudCanvas
