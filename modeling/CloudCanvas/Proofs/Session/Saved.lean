import CloudCanvas.Proofs.Archive.Codec
import CloudCanvas.Proofs.Archive.Restore
import CloudCanvas.Proofs.Session.History

/-!
# Saved designs come back

What a session has saved under a name is what it loads from there, as long as nothing
else is saved under that name.

## Main definitions

* `Topology.Shallow`: a drawing whose properties are not nested deeper than a text of it
  can be read.

The main statement is `Workspace.load_run_save`.
-/

namespace CloudCanvas

namespace Topology

variable {t : Topology}

/-- Every property is nested at most 123 deep. -/
structure Shallow (t : Topology) : Prop where
  nodes : ∀ node ∈ t.nodes, node.properties.Shallow
  groups : ∀ group ∈ t.groups, group.properties.Shallow
  links : ∀ link ∈ t.links, link.properties.Shallow

instance (t : Topology) : Decidable t.Shallow :=
  decidable_of_iff ((∀ node ∈ t.nodes, node.properties.Shallow) ∧
    (∀ group ∈ t.groups, group.properties.Shallow) ∧ ∀ link ∈ t.links, link.properties.Shallow)
    ⟨fun h => ⟨h.1, h.2.1, h.2.2⟩, fun h => ⟨h.nodes, h.groups, h.links⟩⟩

theorem Shallow.archive (h : t.Shallow) : t.archive.Shallow where
  nodes := h.nodes
  groups := List.forall_mem_map.2 h.groups
  links := h.links

theorem summary_archive (t : Topology) :
    t.archive.summary = ⟨t.nodes.length, t.groups.length, t.links.length⟩ := by
  simp [Archive.summary, archive]

end Topology

/-- The text of an archive starts with a brace. -/
theorem Archive.isAllBlank_text (a : Archive) : isAllBlank a.text = false := by
  have brace : isBlank '\x7b' = false := by decide
  rw [isAllBlank, text, Json.compact, String.toList_ofList, json, Json.compactChars]
  simp [brace]

namespace Session

variable {s : Session} {store : MemoryStore} {name : String}

/-- What a save that succeeds has done. -/
theorem save_eq_saved {status : ℕ} {s' : Session} {store' : MemoryStore}
    (h : s.save store name = (.ok (.saved status), s', store')) :
    isAllBlank name = false ∧ s' = { s with name := some name } ∧
      store'.designs.get? name = some s.topology.archive.text := by
  rw [save] at h
  split at h
  · cases h
  rename_i notBlank
  split at h
  · cases h
  rename_i archive written
  obtain ⟨-, rfl⟩ := Topology.archive?_eq_some_iff.1 written
  simp only [DesignStore.save] at h
  split at h
  · rename_i success
    obtain ⟨-, rfl, rfl⟩ := Prod.mk.inj h |>.imp_right Prod.mk.inj
    exact ⟨by simpa using notBlank, rfl, MemoryStore.get?_save_self success⟩
  · cases h

/-- A stored text that is a shallow drawing's is read as its archive. -/
theorem readDesign_text {a : Archive} (shallow : a.Shallow) : readDesign a.text = .ok a := by
  rw [readDesign, a.isAllBlank_text, Archive.parse?_text shallow]
  rfl

/-- **A load of a well-formed drawing's text installs that drawing**, whatever the session
held before. -/
theorem load_eq_loaded {t : Topology} (wf : t.WellFormed) (shallow : t.Shallow)
    (notBlank : isAllBlank name = false)
    (kept : store.designs.get? name = some t.archive.text) :
    s.load store name = (.ok (.loaded ⟨t.nodes.length, t.groups.length, t.links.length⟩),
      ⟨t, some name, s.tickets + 1⟩, store) := by
  have reply : store.load name = (Status.ok, t.archive.text) := by
    rw [MemoryStore.load, kept]
  have success : isSuccess Status.ok = true := by decide
  have restored : (∅ : Topology).load t.archive = (.ok t.archive.summary, t) := by
    rw [Topology.load, wf.restore_archive]
  rw [load, notBlank]
  simp [takeTicket, loadWithTicket, DesignStore.load, reply, vacate, settle, success,
    readDesign_text shallow.archive, install, restored, t.summary_archive]

end Session

namespace Workspace

variable {name : String}

/-- **Saved designs come back.**  Whatever is done behind a save that succeeded, if
nothing is saved under that name again, a load gives back the drawing that was saved. -/
theorem load_run_save (w : Workspace) (reachable : w.session.topology.Reachable)
    (before after : List WorkspaceStep) {status : ℕ}
    (shallow : (w.run before).session.topology.Shallow)
    (saved : ((w.run before).session.save (w.run before).store name).1 = .ok (.saved status))
    (untouched : ∀ step ∈ after, ¬ step.WritesUnder name) :
    let t := (w.run before).session.topology
    let last := w.run (before ++ .save name :: after)
    last.session.load last.store name =
      (.ok (.loaded ⟨t.nodes.length, t.groups.length, t.links.length⟩),
        ⟨t, some name, last.session.tickets + 1⟩, last.store) := by
  intro t last
  have wf : t.WellFormed := (reachable_run reachable before).wellFormed
  obtain ⟨notBlank, -, kept⟩ := Session.save_eq_saved (Prod.ext saved rfl)
  have split : last = ((w.run before).apply (.save name)).run after := by
    simp [last, run]
  have still : last.store.designs.get? name = some t.archive.text := by
    rw [split, get?_run untouched]
    exact kept
  exact Session.load_eq_loaded wf shallow notBlank still

/-- A network with a subnet around a linked interface, which stands at `(12.5, -0.25)`, is
saved.  Then a node is added and the whole saved under another name, the network removed, the
session cleared, and an unreadable design of somebody else fails to load.  The saved drawing
comes back. -/
theorem load_run_save_edge :
    let place : Position :=
      ⟨⟨false, 0x19000000000000, -49, by decide⟩, ⟨true, 0x10000000000000, -54, by decide⟩⟩
    let network : Group := ⟨⟨"net", "virtual-network", ∅, none, none⟩, [], []⟩
    let subnet : Group :=
      ⟨⟨"front", "subnet", Dict.insert ∅ "delegated" (.bool true), some "net", none⟩, [], []⟩
    let interface : Node := ⟨"nic", "network-interface", ∅, some "front", some place⟩
    let address : Node := ⟨"ip", "public-ip", Dict.insert ∅ "name" (.string "ip"), none, none⟩
    let wire : Link := ⟨"wire", "nic", "ip", Dict.insert ∅ "ports" (.array [.null, .bool true])⟩
    let drawing : Topology := ⟨[interface, address],
      [{ network with childGroups := ["front"] }, { subnet with childNodes := ["nic"] }], [wire]⟩
    let before : List WorkspaceStep := [.edit (.addGroup network), .edit (.addGroup subnet),
      .edit (.addNode interface), .edit (.addNode address), .edit (.addLink wire)]
    let after : List WorkspaceStep := [.edit (.addNode ⟨"late", "public-ip", ∅, none, none⟩),
      .save "copy", .edit (.remove "net"), .clear, .write "spare" "no design", .load "spare"]
    let last := run ⟨.start, ∅⟩ (before ++ .save "edge" :: after)
    last.store.list = ["copy", "edge", "spare"] ∧
      last.session.load last.store "edge" = (.ok (.loaded ⟨2, 2, 1⟩),
        ⟨drawing, some "edge", last.session.tickets + 1⟩, last.store) := by
  intro place network subnet interface address wire drawing before after
  have drawn : (run ⟨.start, ∅⟩ before).session.topology = drawing := by decide +kernel
  have shallow : (run ⟨.start, ∅⟩ before).session.topology.Shallow := by
    rw [drawn]
    decide +kernel
  have saved : ((run ⟨.start, ∅⟩ before).session.save (run ⟨.start, ∅⟩ before).store "edge").1 =
      .ok (.saved 201) := by decide +kernel
  have untouched : ∀ step ∈ after, ¬ step.WritesUnder "edge" := by
    simp [after, WorkspaceStep.WritesUnder]
  have back := load_run_save ⟨.start, ∅⟩ Topology.reachable_empty before after shallow saved
    untouched
  rw [drawn] at back
  exact ⟨by decide +kernel, back⟩

end Workspace

end CloudCanvas
