import CloudCanvas.Proofs.Topology.Merge
import CloudCanvas.Proofs.Topology.Numbering
import CloudCanvas.Server
import CloudCanvas.Store.Memory

/-!
# Properties and links from a client

A client sets properties of a node, a group or a link, all of them at once.  Whether there is
anything with the id is looked up anew for each property, and not at all if there is none to
set: then any id will do.  Links that a client adds are all there or none of them is; those
without an id are numbered on the way.

## Main definitions

* `Server.Merges`: what becomes of a server of which properties are set.

The main statements are `Server.setProperties_merges` and `Server.addLinks_of_suits`.
-/

namespace CloudCanvas

namespace Server

variable {σ : Type} {server : Server σ} {id : String} {changes : Properties}

/-! ## Properties -/

/-- **What becomes of a server** when properties of what has an id are set. -/
structure Merges (server : Server σ) (id : String) (changes : Properties) (answer : Answer)
    (after : Server σ) : Prop where
  isError_iff : answer.isError = true ↔ id ∉ server.topology.ids ∧ changes.entries ≠ []
  /-- There is nothing with the id, and nothing happens. -/
  unchanged : id ∉ server.topology.ids → after = server
  /-- One element has the changes made to its properties. -/
  amends : id ∈ server.topology.ids → ∃ next, after = server.withTopology next ∧
    Topology.Amends id changes server.topology next
  /-- Any order of the changes comes to the same. -/
  anyOrder : ∀ entries : List (String × Value), entries.Perm changes.entries →
    entries.foldlM (fun t change => t.setProperty id change.1 change.2) server.topology =
      server.topology.setProperties id changes

theorem setProperties_of_mem (named : id ∈ server.topology.ids) :
    server.setProperties id changes =
      (.success ("Updated " ++ toString changes.size ++ " property(ies) on '" ++ id ++ "'."),
        server.withTopology (server.topology.updateProperties id (·.merge changes))) := by
  have set := Topology.foldlM_setProperty_of_perm named (.refl changes.entries)
  rw [← Topology.setProperties_eq_foldlM] at set
  rw [setProperties, set]
  rfl

theorem setProperties_of_absent (absent : id ∉ server.topology.ids)
    (any : changes.entries ≠ []) :
    server.setProperties id changes =
      (.failure (IntegrityError.unknownElement id).message, server) := by
  have refused := Topology.foldlM_setProperty_of_absent absent any
  rw [← Topology.setProperties_eq_foldlM] at refused
  rw [setProperties, refused]
  simp only [commit, String.empty_append]

/-- Without properties to set, no id is looked up. -/
theorem setProperties_of_nothing (nothing : changes.entries = []) :
    server.setProperties id changes =
      (.success ("Updated " ++ toString changes.size ++ " property(ies) on '" ++ id ++ "'."),
        server) := by
  have kept : server.topology.setProperties id changes = .ok server.topology := by
    rw [Topology.setProperties_eq_foldlM, nothing]
    rfl
  rw [setProperties, kept]
  rfl

/-- **Properties are set by a merge that is checked if there are any.**  On every drawing that
changes can make of the empty one, an id that nothing has is refused if there is a property to
set, and never changes anything.  Whatever has the id keeps the properties that are not
mentioned and gets those with a value; the order does not matter, and the rest of the drawing
is as it was. -/
theorem setProperties_merges (reachable : server.topology.Reachable) (id : String)
    (changes : Properties) :
    server.Merges id changes (server.setProperties id changes).1
      (server.setProperties id changes).2 := by
  by_cases named : id ∈ server.topology.ids
  · have set : server.setProperties id changes = _ := setProperties_of_mem named
    refine ⟨?_, fun absent => absurd named absent, fun _ => ?_, fun entries order => ?_⟩
    · simp [set, Answer.success, named]
    · exact ⟨_, congrArg Prod.snd set, reachable.wellFormed.amends_of_mem named changes⟩
    · rw [Topology.setProperties_eq_foldlM]
      exact (Topology.foldlM_setProperty_of_perm named order).trans
        (Topology.foldlM_setProperty_of_perm named (.refl _)).symm
  by_cases nothing : changes.entries = []
  · have kept : server.setProperties id changes = _ := setProperties_of_nothing nothing
    refine ⟨?_, fun _ => congrArg Prod.snd kept, fun mem => absurd mem named,
      fun entries order => ?_⟩
    · simp [kept, Answer.success, nothing]
    · rw [nothing] at order
      rw [order.eq_nil, Topology.setProperties_eq_foldlM, nothing]
  · have refused := setProperties_of_absent named nothing
    refine ⟨?_, fun _ => congrArg Prod.snd refused, fun mem => absurd mem named,
      fun entries order => ?_⟩
    · simp [refused, Answer.failure, named, nothing]
    · have any : entries ≠ [] := fun eq => nothing (order.symm.trans (.of_eq eq)).eq_nil
      rw [Topology.setProperties_eq_foldlM]
      exact (Topology.foldlM_setProperty_of_absent named any).trans
        (Topology.foldlM_setProperty_of_absent named nothing).symm

/-- A link between two nodes, of which one property is deleted and another is new; without its
id the same changes are refused. -/
theorem setProperties_merges_link :
    let node (id : String) : Node := ⟨id, "public-ip", ∅, none, none⟩
    let link (properties : List (String × Value)) : Link :=
      ⟨"link-1", "a", "b", .ofList properties⟩
    let t := Topology.run ∅ [.addNode (node "a"), .addNode (node "b"),
      .addLink (link [("note", .string "old"), ("size", .string "small")])]
    let server : Server MemoryStore := ⟨⟨t, none, 0⟩, ∅⟩
    let changes : Properties := .ofList [("note", .null), ("zone", .string "north")]
    let merges (id : String) := server.Merges id changes (server.setProperties id changes).1
      (server.setProperties id changes).2
    t.Reachable ∧ merges "link-1" ∧ merges "link-2" ∧
      (server.setProperties "link-1" changes).2 =
        server.withTopology { t with
          links := [link [("size", .string "small"), ("zone", .string "north")]] } ∧
      (server.setProperties "link-2" changes).1.isError = true := by
  intro node link t server changes merges
  have reachable : server.topology.Reachable := ⟨_, rfl⟩
  have merged (id : String) : server.Merges id changes (server.setProperties id changes).1
      (server.setProperties id changes).2 := setProperties_merges reachable id changes
  have absent : "link-2" ∉ t.ids := by decide +kernel
  refine ⟨reachable, merged _, merged _, ?_, ?_⟩
  · have set : server.setProperties "link-1" changes = _ :=
      setProperties_of_mem (show "link-1" ∈ t.ids by decide +kernel)
    have next : t.updateProperties "link-1" (·.merge changes) = { t with
      links := [link [("size", .string "small"), ("zone", .string "north")]] } := by
      decide +kernel
    rw [set, ← next]
    rfl
  · exact (merged "link-2").isError_iff.2 ⟨absent, by decide +kernel⟩

/-- Where nothing has the id, an empty set of properties is not refused. -/
theorem setProperties_nowhere :
    let server : Server MemoryStore := .start ∅
    server.topology.Reachable ∧
      ¬ ((server.setProperties "ghost" ∅).1.isError = true ↔ "ghost" ∉ server.topology.ids) := by
  intro server
  have absent : "ghost" ∉ server.topology.ids := by decide
  have accepted : (server.setProperties "ghost" ∅).1.isError = false := rfl
  refine ⟨⟨[], rfl⟩, fun checked => ?_⟩
  rw [checked.2 absent] at accepted
  cases accepted

/-! ## Links -/

/-- **Links that suit a drawing are added, if none takes the id of a later one.**  On every
drawing that changes can make of the empty one, each draft then becomes one link, in order and
behind the links that were there, with the id that it has or one that nothing else has.
Otherwise nothing happens. -/
theorem addLinks_of_suits (reachable : server.topology.Reachable) {drafts : List LinkDraft}
    (any : drafts ≠ []) (suits : server.topology.Suits drafts) :
    (¬ server.topology.Preempts drafts → ∃ links, List.Forall₂ LinkDraft.Makes drafts links ∧
      (links.map (·.id)).Nodup ∧ (∀ link ∈ links, link.id ∉ server.topology.ids) ∧
        server.addLinks drafts =
          (.success ("Added " ++ toString links.length ++ " link(s): "
            ++ ", ".intercalate (links.map (·.id))),
          server.withTopology { server.topology with
            links := server.topology.links ++ links.map (·.withoutNulls) })) ∧
    (server.topology.Preempts drafts → ∃ id ∈ LinkDraft.named drafts, server.addLinks drafts =
      (.failure ("No links added: " ++ (IntegrityError.duplicateId id).message), server)) := by
  have notEmpty : drafts.isEmpty = false := by simpa using any
  constructor
  · intro free
    obtain ⟨ids, next, added⟩ := suits.exists_addLinks free
    obtain ⟨links, makes, rfl, extended⟩ := Topology.addLinks_eq_extend added
    have rows : next = { server.topology with
        links := server.topology.links ++ links.map (·.withoutNulls) } :=
      extended.trans (Topology.extend_links _)
    have ids : next.ids = server.topology.ids ++ links.map (·.id) := by
      rw [rows]
      simp [Topology.ids, Topology.elementIds, Function.comp_def, Link.withoutNulls]
    have nodup := (reachable.wellFormed.addLinks added).ids_nodup
    rw [ids, List.nodup_append] at nodup
    refine ⟨links, makes, nodup.2.1, fun link mem used => ?_, ?_⟩
    · exact nodup.2.2 _ used _ (List.mem_map_of_mem mem) rfl
    · rw [addLinks, notEmpty, added, ← rows]
      simp [commit]
  · intro preempts
    obtain ⟨id, named, refused⟩ := preempts.exists_refused suits.ends
    refine ⟨id, named, ?_⟩
    rw [addLinks, notEmpty, refused]
    rfl

/-- Between two nodes, links of which the first has an id, and others of which the last has the
id that the first is to get. -/
theorem addLinks_of_suits_mixed :
    let node (id : String) : Node := ⟨id, "public-ip", ∅, none, none⟩
    let t := Topology.run ∅ [.addNode (node "a"), .addNode (node "b")]
    let server : Server MemoryStore := ⟨⟨t, none, 0⟩, ∅⟩
    let draft (id : Option String) : LinkDraft := ⟨id, "a", "b", ∅⟩
    let added := [draft (some "link-1"), draft none, draft none]
    let refused := [draft none, draft (some "link-1")]
    t.Reachable ∧ t.Suits added ∧ t.Suits refused ∧
      (∃ links, List.Forall₂ LinkDraft.Makes added links ∧ (server.addLinks added).2 =
        server.withTopology { t with links := links.map (·.withoutNulls) }) ∧
      (server.addLinks added).1.text = "Added 3 link(s): link-1, link-2, link-3" ∧
      (server.addLinks refused).2 = server := by
  intro node t server draft added refused
  have reachable : server.topology.Reachable := ⟨_, rfl⟩
  have suitsAdded : t.Suits added := ⟨by decide +kernel, by decide, by decide +kernel⟩
  have suitsRefused : t.Suits refused := ⟨by decide +kernel, by decide, by decide +kernel⟩
  have free : ¬ t.Preempts added :=
    Topology.not_preempts_of_named_first (by simp [added, draft])
  have taken : t.Preempts refused := .here rfl (by decide +kernel)
  obtain ⟨links, makes, -, -, kept⟩ :=
    (addLinks_of_suits reachable (by simp [added]) suitsAdded).1 free
  obtain ⟨id, -, dropped⟩ :=
    (addLinks_of_suits reachable (by simp [refused]) suitsRefused).2 taken
  exact ⟨reachable, suitsAdded, suitsRefused, ⟨links, makes, congrArg Prod.snd kept⟩,
    by decide +kernel, congrArg Prod.snd dropped⟩

/-- Links that suit the drawing are refused: the first of them gets the id of the second. -/
theorem addLinks_preempted :
    let node (id : String) : Node := ⟨id, "public-ip", ∅, none, none⟩
    let t := Topology.run ∅ [.addNode (node "a"), .addNode (node "b")]
    let server : Server MemoryStore := ⟨⟨t, none, 0⟩, ∅⟩
    let drafts : List LinkDraft := [⟨none, "a", "b", ∅⟩, ⟨some "link-1", "b", "a", ∅⟩]
    t.Reachable ∧ drafts ≠ [] ∧ t.Suits drafts ∧ (server.addLinks drafts).1.isError = true := by
  intro node t server drafts
  exact ⟨⟨_, rfl⟩, by decide, ⟨by decide +kernel, by decide, by decide +kernel⟩,
    by decide +kernel⟩

end Server

end CloudCanvas
