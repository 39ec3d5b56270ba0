import CloudCanvas.Proofs.Archive.Coherence

/-!
# A drawing comes back from its archive

An archive leaves out what the groups contain.  In a well-formed drawing nothing is lost
by that: its archive is coherent, and what is restored of it is the drawing.  The other way
round, what is restored of an archive has the same archive again, except for properties
without a value.

The main statements are `Topology.WellFormed.restore_archive` and
`Topology.archive?_load_inverse`.
-/

namespace CloudCanvas

/-- A group is its record and what it contains. -/
theorem Group.eq_of_record_eq {group other : Group}
    (record : group.toGroupRecord = other.toGroupRecord)
    (childGroups : group.childGroups = other.childGroups)
    (childNodes : group.childNodes = other.childNodes) : group = other := by
  cases group
  cases other
  cases record
  cases childGroups
  cases childNodes
  rfl

namespace Topology

variable {t u : Topology}

namespace WellFormed

/-- **A well-formed drawing is its records.** -/
theorem eq_of_archive_eq (ht : t.WellFormed) (hu : u.WellFormed) (h : t.archive = u.archive) :
    t = u := by
  obtain ⟨nodes, records, links⟩ := Archive.mk.inj h
  -- what a group contains is said by the records of what is in it
  have groupIds : ∀ id, t.groupIdsIn id = u.groupIdsIn id := by
    intro id
    have recorded : ∀ groups : List Group,
        (groups.filter (fun group => group.parent == some id)).map (·.id) =
          ((groups.map (·.toGroupRecord)).filter (fun record => record.parent == some id)).map
            (·.id) := by
      intro groups
      rw [List.filter_map, List.map_map]
      rfl
    rw [groupIdsIn, groupIdsIn, recorded, recorded, records]
  have nodeIds : ∀ id, t.nodeIdsIn id = u.nodeIdsIn id := fun id => by
    rw [nodeIdsIn, nodeIdsIn, nodes]
  refine Topology.ext nodes ?_ links
  have length : t.groups.length = u.groups.length := by simpa using congrArg List.length records
  refine List.ext_getElem length fun i hi hi' => ?_
  have record : t.groups[i].toGroupRecord = u.groups[i].toGroupRecord := by
    have := List.getElem_of_eq records (i := i) (by simpa using hi)
    simpa using this
  have id : t.groups[i].id = u.groups[i].id := congrArg GroupRecord.id record
  have childGroups : t.groups[i].childGroups = u.groups[i].childGroups := by
    rw [ht.childGroups_eq _ (List.getElem_mem hi), hu.childGroups_eq _ (List.getElem_mem hi'),
      groupIds, id]
  have childNodes : t.groups[i].childNodes = u.groups[i].childNodes := by
    rw [ht.childNodes_eq _ (List.getElem_mem hi), hu.childNodes_eq _ (List.getElem_mem hi'),
      nodeIds, id]
  exact Group.eq_of_record_eq record childGroups childNodes

variable (wf : t.WellFormed)
include wf

/-- The archive of a well-formed drawing describes it. -/
theorem describes_archive : t.archive.Describes t := by
  have nodes : t.nodes.map Node.withoutNulls = t.nodes := by
    refine (List.map_congr_left (g := id) fun node mem => ?_).trans (List.map_id _)
    rw [Node.withoutNulls, (wf.node_noNulls node mem).withoutNulls_eq, id]
  have groups : (t.groups.map (·.toGroupRecord)).map GroupRecord.withoutNulls =
      t.groups.map (·.toGroupRecord) := by
    rw [List.map_map]
    refine List.map_congr_left fun group mem => ?_
    rw [Function.comp_apply, GroupRecord.withoutNulls, (wf.group_noNulls group mem).withoutNulls_eq]
  have links : t.links.map Link.withoutNulls = t.links := by
    refine (List.map_congr_left (g := id) fun link mem => ?_).trans (List.map_id _)
    rw [Link.withoutNulls, (wf.link_noNulls link mem).withoutNulls_eq, id]
  rw [Archive.Describes, Archive.withoutNulls, archive, nodes, groups, links]

/-- **The archive of a well-formed drawing is coherent.** -/
theorem coherent_archive : t.archive.Coherent where
  ids_nodup := wf.describes_archive.ids_eq ▸ wf.ids_nodup
  parents_first := by
    intro before record after parent split inside
    obtain ⟨first, rest, groups, rfl, later⟩ := List.map_eq_append_iff.1 split
    obtain ⟨group, rest, rfl, rfl, -⟩ := List.map_eq_cons_iff.1 later
    obtain ⟨outer, mem, rfl⟩ := wf.parents_first first group rest parent groups inside
    exact List.mem_map.2 ⟨outer.toGroupRecord, List.mem_map_of_mem mem, rfl⟩
  node_group := wf.describes_archive.groupIds_eq ▸ wf.node_group
  link_ends := wf.describes_archive.elementIds_eq ▸ wf.link_ends

/-- **A well-formed drawing is what its archive is restored to.** -/
theorem restore_archive : t.archive.restore = .ok t := by
  obtain ⟨u, restored⟩ := Archive.exists_restore_iff_coherent.2 wf.coherent_archive
  have records : u.archive = t.archive :=
    (Archive.describes_of_restore restored).trans wf.describes_archive.symm
  rw [restored, (Archive.restore_wellFormed restored).eq_of_archive_eq wf records]

/-- Without nodes and groups there is nothing that a link could join. -/
theorem links_eq_nil (nodes : t.nodes = []) (groups : t.groups = []) : t.links = [] := by
  refine List.eq_nil_iff_forall_not_mem.2 fun link mem => ?_
  have inside : link.source ∈ t.elementIds := (wf.link_ends link mem).1
  simp [elementIds, nodes, groups] at inside

theorem archive?_eq_none_iff :
    t.archive? = none ↔ t.nodes = [] ∧ t.groups = [] ∧ t.links = [] := by
  simp only [archive?, isEmpty, ite_eq_left_iff, reduceCtorEq, imp_false, not_not,
    Bool.and_eq_true, List.isEmpty_iff]
  constructor
  · rintro ⟨nodes, groups⟩
    exact ⟨nodes, groups, wf.links_eq_nil nodes groups⟩
  · rintro ⟨nodes, groups, -⟩
    exact ⟨nodes, groups⟩

/-- A well-formed drawing that is written down takes the place of any other when it is
loaded. -/
theorem load_archive? {a : Archive} (written : t.archive? = some a) (target : Topology) :
    target.load a = (.ok a.summary, t) := by
  obtain ⟨-, rfl⟩ := archive?_eq_some_iff.1 written
  rw [Topology.load, wf.restore_archive]

end WellFormed

/-- A drawing that is loaded from an archive has that archive again. -/
theorem archive?_load {a : Archive} {target : Topology} {summary : LoadSummary}
    (loaded : (target.load a).1 = .ok summary) (something : a.nodes ≠ [] ∨ a.groups ≠ []) :
    (target.load a).2.archive? = some a.withoutNulls := by
  obtain ⟨restored, -⟩ := load_fst_eq_ok_iff.1 loaded
  have describes : (target.load a).2.archive = a.withoutNulls :=
    Archive.describes_of_restore restored
  refine archive?_eq_some_iff.2 ⟨?_, describes.symm⟩
  have nodes := congrArg (fun a : Archive => a.nodes = []) describes
  have groups := congrArg (fun a : Archive => a.groups = []) describes
  simp only [archive, Archive.withoutNulls, List.map_eq_nil_iff] at nodes groups
  rw [isEmpty, Bool.eq_false_iff, ne_eq, Bool.and_eq_true, List.isEmpty_iff, List.isEmpty_iff,
    nodes, groups]
  tauto

/-- **Writing down and loading undo each other.**  A drawing is not written down exactly if
there is nothing in it, and what is written down of it loads, in place of any drawing, as the
very same drawing.  What loads from an archive with a node or a group is written down as that
archive, less the properties that have no value. -/
theorem archive?_load_inverse (reachable : t.Reachable) :
    (t.archive? = none ↔ t.nodes = [] ∧ t.groups = [] ∧ t.links = []) ∧
      (∀ a, t.archive? = some a → ∀ target : Topology, target.load a = (.ok a.summary, t)) ∧
        ∀ (a : Archive) (target : Topology) summary, (target.load a).1 = .ok summary →
          a.nodes ≠ [] ∨ a.groups ≠ [] →
            (target.load a).2.archive? = some a.withoutNulls := by
  have wf := reachable.wellFormed
  refine ⟨wf.archive?_eq_none_iff, ?_, ?_⟩
  · intro a written target
    exact wf.load_archive? written target
  · intro a target summary loaded something
    exact archive?_load loaded something

/-- A drawing whose outer group lost its first subgroup, and an archive with a property that
has no value. -/
theorem archive?_load_inverse_regrouped :
    let t := run ∅ [.addGroup ⟨⟨"vnet", "virtual-network", ∅, none, none⟩, [], []⟩,
      .addGroup ⟨⟨"front", "subnet", ∅, some "vnet", none⟩, [], []⟩,
      .addGroup ⟨⟨"back", "subnet", ∅, some "vnet", none⟩, [], []⟩,
      .addNode ⟨"nic", "network-interface", ∅, some "back", none⟩,
      .addNode ⟨"ip", "public-ip", ∅, some "back", none⟩,
      .addLink ⟨"wire", "ip", "nic", ∅⟩, .remove "front"]
    let a : Archive := ⟨[⟨"ip", "public-ip", Dict.insert ∅ "sku" .null, none, none⟩], [], []⟩
    t.groups.map (·.childGroups) = [["back"], []] ∧
      (∃ b, t.archive? = some b ∧ ∀ target : Topology, target.load b = (.ok b.summary, t)) ∧
        ((∅ : Topology).load a).2.archive? =
          some ⟨[⟨"ip", "public-ip", ∅, none, none⟩], [], []⟩ := by
  intro t a
  have inverse := archive?_load_inverse (t := t) ⟨_, rfl⟩
  have written : t.archive? = some t.archive := archive?_eq_some_iff.2 ⟨by decide +kernel, rfl⟩
  have loaded : ((∅ : Topology).load a).1 = .ok ⟨1, 0, 0⟩ := by decide
  have again := inverse.2.2 a ∅ _ loaded (.inl (by simp [a]))
  have bare : a.withoutNulls = ⟨[⟨"ip", "public-ip", ∅, none, none⟩], [], []⟩ := by decide
  exact ⟨by decide +kernel, ⟨_, written, inverse.2.1 _ written⟩, again.trans (congrArg some bare)⟩

end Topology

end CloudCanvas
