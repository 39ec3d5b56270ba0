import CloudCanvas.Proofs.Session.Load
import CloudCanvas.Proofs.Topology.Batch
import CloudCanvas.Server

/-!
# Histories of the server

Clients call the tools of a server one after another.  An answer that is an error means that
nothing has happened: the drawing and its name are what they were.  Only a load of a design
with a name may take the drawing away and then fail.  An answer that is none means that all
of what was asked for has been done.

## Main definitions

* `Call`, `Server.run`: histories of calls.
* `Request.Yields`: what a request makes of a drawing, if all goes well.
* `Server.Accords`: what an answer tells about the drawing.

The main statement is `Server.run_accords`.
-/

namespace CloudCanvas

/-- A request, and how the converter behaves while it is answered. -/
structure Call where
  request : Request
  convert : String → Except ConvertError String

namespace Request

/-- A request that only reads the drawing. -/
def IsReadOnly : Request → Prop
  | .getRules | .getDesign | .exportTemplate | .exportBicep | .saveDesign _ | .listDesigns => True
  | .addGroups _ | .addNodes _ | .addLinks _ | .setProperties _ _ | .deleteElements _
  | .clearDesign | .loadDesign _ => False

/-- A request for the design with a name. -/
def IsNamedLoad : Request → Prop
  | .loadDesign name => isAllBlank name = false
  | _ => False

/-- **What a request makes of a drawing**, if all goes well. -/
def Yields (request : Request) (before after : Topology) : Prop :=
  match request with
  | .addGroups groups =>
    after = before.extend (Archive.withoutNulls ⟨[], groups.map (·.toGroupRecord), []⟩)
  | .addNodes nodes => after = before.extend (Archive.withoutNulls ⟨nodes, [], []⟩)
  | .addLinks drafts => ∃ links, List.Forall₂ LinkDraft.Makes drafts links ∧
      after = before.extend (Archive.withoutNulls ⟨[], [], links⟩)
  | .setProperties id changes => before.setProperties id changes = .ok after
  | .deleteElements ids => after = before.spared ids
  | .clearDesign => after = ∅
  | .loadDesign _ => ∃ a : Archive, a.Coherent ∧ a.Describes after
  | .getRules | .getDesign | .exportTemplate | .exportBicep | .saveDesign _ | .listDesigns =>
    after = before

variable {request : Request}

theorem IsReadOnly.not_isNamedLoad (h : request.IsReadOnly) : ¬ request.IsNamedLoad := by
  cases request <;> simp_all [IsReadOnly, IsNamedLoad]

theorem IsReadOnly.yields (h : request.IsReadOnly) (t : Topology) : request.Yields t t := by
  cases request <;> simp_all [IsReadOnly, Yields]

end Request

namespace Answer

variable {name : String}

theorem isError_ofSave {result : Except SessionError SaveOutcome} :
    (ofSave name result).isError = true ↔ ∃ e, result = .error e := by
  rcases result with e | (status | _) <;> simp [ofSave, success, failure]

end Answer

/-- A save leaves the session alone, or it succeeds and gives the session its name. -/
theorem Session.save_cases {σ : Type} [DesignStore σ] (s : Session) (store : σ) (name : String) :
    (s.save store name).2.1 = s ∨ ∃ status, (s.save store name).1 = .ok (.saved status) ∧
      (s.save store name).2.1 = { s with name := some name } := by
  rw [save]
  split
  · exact .inl rfl
  split
  · exact .inl rfl
  split
  · exact .inl rfl
  split
  · exact .inr ⟨_, rfl, rfl⟩
  · exact .inl rfl

namespace Server

variable {σ : Type}

/-- Answer calls one after another. -/
def run [DesignStore σ] (server : Server σ) (calls : List Call) : Server σ :=
  calls.foldl (fun server call => (server.respond call.convert call.request).2) server

/-- **What an answer tells about the drawing.** -/
structure Accords (before : Server σ) (request : Request) (answer : Answer)
    (after : Server σ) : Prop where
  wellFormed : after.topology.WellFormed
  /-- What was asked for has been done. -/
  done : answer.isError = false → request.Yields before.topology after.topology
  /-- Nothing has happened. -/
  refused : answer.isError = true → ¬ request.IsNamedLoad →
    after.topology = before.topology ∧ after.session.name = before.session.name
  /-- The drawing is lost. -/
  failedLoad : answer.isError = true → request.IsNamedLoad → after.session.IsVacant
  readOnly : request.IsReadOnly → after.topology = before.topology

variable {before after server : Server σ} {request : Request} {answer : Answer} {text : String}

/-! ## One call -/

/-- A refusal that leaves the server alone. -/
theorem accords_failure (wf : server.topology.WellFormed) (other : ¬ request.IsNamedLoad) :
    Accords server request (.failure text) server where
  wellFormed := wf
  done := nofun
  refused _ _ := ⟨rfl, rfl⟩
  failedLoad _ named := absurd named other
  readOnly _ := rfl

/-- A success of a request that does not only read. -/
theorem accords_success (wf : after.topology.WellFormed) (edits : ¬ request.IsReadOnly)
    (yields : request.Yields before.topology after.topology) :
    Accords before request (.success text) after where
  wellFormed := wf
  done _ := yields
  refused := nofun
  failedLoad := nofun
  readOnly h := absurd h edits

/-- Any answer to a request that only reads. -/
theorem accords_of_readOnly (wf : before.topology.WellFormed) (reads : request.IsReadOnly)
    (topology : after.topology = before.topology)
    (name : answer.isError = true → after.session.name = before.session.name) :
    Accords before request answer after where
  wellFormed := topology ▸ wf
  done _ := topology ▸ reads.yields _
  refused failed _ := ⟨topology, name failed⟩
  failedLoad _ named := absurd named reads.not_isNamedLoad
  readOnly _ := topology

/-- An edit is kept whole or dropped. -/
theorem accords_commit {α : Type} {result : Except IntegrityError α} {topologyOf : α → Topology}
    {text : α → String} {trouble : String} (wf : server.topology.WellFormed)
    (edits : ¬ request.IsReadOnly) (other : ¬ request.IsNamedLoad)
    (done : ∀ x, result = .ok x →
      (topologyOf x).WellFormed ∧ request.Yields server.topology (topologyOf x)) :
    Accords server request (server.commit result topologyOf text trouble).1
      (server.commit result topologyOf text trouble).2 := by
  cases result with
  | ok x =>
      obtain ⟨wf', yields⟩ := done x rfl
      exact accords_success wf' edits yields
  | error e => exact accords_failure wf other

section Requests

variable (wf : server.topology.WellFormed)
include wf

theorem accords_addGroups (groups : List Group) : Accords server (.addGroups groups)
    (server.addGroups groups).1 (server.addGroups groups).2 := by
  rw [addGroups]
  split
  · exact accords_failure wf id
  · refine accords_commit wf id id fun t added => ?_
    exact ⟨wf.addGroups added, wf.addGroups_eq_extend added⟩

theorem accords_addNodes (nodes : List Node) : Accords server (.addNodes nodes)
    (server.addNodes nodes).1 (server.addNodes nodes).2 := by
  rw [addNodes]
  split
  · exact accords_failure wf id
  · refine accords_commit wf id id fun t added => ?_
    exact ⟨wf.addNodes added, Topology.addNodes_eq_extend added⟩

theorem accords_addLinks (drafts : List LinkDraft) : Accords server (.addLinks drafts)
    (server.addLinks drafts).1 (server.addLinks drafts).2 := by
  rw [addLinks]
  split
  · exact accords_failure wf id
  · refine accords_commit wf id id fun ⟨ids, t⟩ added => ?_
    obtain ⟨links, makes, -, extended⟩ := Topology.addLinks_eq_extend added
    exact ⟨wf.addLinks added, links, makes, extended⟩

theorem accords_setProperties (id : String) (changes : Properties) :
    Accords server (.setProperties id changes) (server.setProperties id changes).1
      (server.setProperties id changes).2 :=
  accords_commit wf (fun h => h) (fun h => h) fun _ set => ⟨wf.setProperties set, set⟩

theorem accords_deleteElements (ids : List String) : Accords server (.deleteElements ids)
    (server.deleteElements ids).1 (server.deleteElements ids).2 := by
  have left : (server.topology.removeAll ids).2.2 = server.topology.spared ids := by
    rw [wf.removeAll_eq_prune, wf.spared_eq_prune]
  exact accords_success (wf.removeAll ids) id left

variable [DesignStore σ] (convert : String → Except ConvertError String)

theorem accords_saveDesign (name : String) :
    Accords server (.saveDesign name) (server.respond convert (.saveDesign name)).1
      (server.respond convert (.saveDesign name)).2 := by
  refine accords_of_readOnly wf trivial (server.session.topology_save server.store name) ?_
  intro failed
  obtain ⟨e, refused⟩ := Answer.isError_ofSave.1 failed
  rcases server.session.save_cases server.store name with alone | ⟨status, saved, -⟩
  · exact congrArg Session.name alone
  · cases saved.symm.trans refused

theorem accords_loadDesign (name : String) :
    Accords server (.loadDesign name) (server.respond convert (.loadDesign name)).1
      (server.respond convert (.loadDesign name)).2 := by
  rw [respond]
  cases blank : isAllBlank name with
  | true =>
      rw [server.session.load_of_blank server.store blank]
      exact accords_failure wf (by simp [Request.IsNamedLoad, blank])
  | false =>
      obtain ⟨result, session, loaded, -, settled⟩ :=
        server.session.exists_load_of_not_blank server.store blank
      rw [loaded]
      rcases Session.settle_newest ⟨rfl, rfl⟩ settled with
        ⟨a, offers, holds, rfl⟩ | ⟨-, vacant, e, rfl⟩
      · obtain ⟨_, _, _, _, _, coherent⟩ := offers
        exact accords_success holds.wellFormed id ⟨a, coherent, holds.describes⟩
      · have empty : session.topology.WellFormed := vacant.1 ▸ Topology.wellFormed_empty
        exact ⟨empty, nofun, fun _ other => absurd blank other, fun _ _ => vacant, False.elim⟩

/-- **Every call leaves what its answer tells.** -/
theorem accords_respond (request : Request) :
    Accords server request (server.respond convert request).1
      (server.respond convert request).2 := by
  cases request with
  | getRules => exact accords_of_readOnly wf trivial rfl fun _ => rfl
  | getDesign => exact accords_of_readOnly wf trivial rfl fun _ => rfl
  | addGroups groups => exact accords_addGroups wf groups
  | addNodes nodes => exact accords_addNodes wf nodes
  | addLinks drafts => exact accords_addLinks wf drafts
  | setProperties id changes => exact accords_setProperties wf id changes
  | deleteElements ids => exact accords_deleteElements wf ids
  | clearDesign => exact accords_success Topology.wellFormed_empty id rfl
  | exportTemplate => exact accords_of_readOnly wf trivial rfl fun _ => rfl
  | exportBicep => exact accords_of_readOnly wf trivial rfl fun _ => rfl
  | saveDesign name => exact accords_saveDesign wf convert name
  | loadDesign name => exact accords_loadDesign wf convert name
  | listDesigns => exact accords_of_readOnly wf trivial rfl fun _ => rfl

end Requests

/-! ## Histories -/

variable [DesignStore σ]

/-- A history keeps the drawing well-formed. -/
theorem wellFormed_run (wf : server.topology.WellFormed) (calls : List Call) :
    (server.run calls).topology.WellFormed := by
  induction calls generalizing server with
  | nil => exact wf
  | cons call calls ih => exact ih (accords_respond wf call.convert call.request).wellFormed

/-- **An error is no edit.**  Whatever has been called before on a new server, and whatever the
store and the converter have answered, a call leaves a well-formed drawing.  If its answer is
an error, the drawing and its name are what they were, or, if a design with a name was to be
loaded, there is nothing left of them.  If it is none, all that was asked for has been done.
A request that only reads does not change the drawing. -/
theorem run_accords (store : σ) (calls : List Call) (call : Call) :
    let before := (start store).run calls
    let (answer, after) := before.respond call.convert call.request
    before.topology.WellFormed ∧ Accords before call.request answer after := by
  have fresh : (start store).topology.WellFormed := Topology.wellFormed_empty
  have wf := wellFormed_run fresh calls
  exact ⟨wf, accords_respond wf call.convert call.request⟩

/-- With one node on the drawing, a batch is refused for its second node, and a load fails. -/
theorem run_accords_refused :
    let node (id : String) (group : Option String) : Node := ⟨id, "text-note", ∅, group, none⟩
    let before := (start (∅ : MemoryStore)).run [⟨.addNodes [node "a" none], .ok⟩]
    let after (request : Request) := (before.respond .ok request).2
    before.topology.nodes = [node "a" none] ∧
      (after (.addNodes [node "b" none, node "c" (some "gone")])).topology = before.topology ∧
        (after (.loadDesign "gone")).session.IsVacant ∧
          (after (.addNodes [node "b" none])).topology.nodes = [node "a" none, node "b" none] := by
  intro node before after
  have accords (request : Request) : Accords before request (before.respond .ok request).1
      (after request) := (run_accords _ _ ⟨request, .ok⟩).2
  have drawn : before.topology.nodes = [node "a" none] := by decide +kernel
  have refused : (before.respond .ok
      (.addNodes [node "b" none, node "c" (some "gone")])).1.isError = true := by decide +kernel
  have failed : (before.respond .ok (.loadDesign "gone")).1.isError = true := by decide +kernel
  have added : (before.respond .ok (.addNodes [node "b" none])).1.isError = false := by
    decide +kernel
  refine ⟨drawn, ((accords _).refused refused id).1, (accords _).failedLoad failed rfl, ?_⟩
  have extended := (accords _).done added
  rw [Request.Yields] at extended
  exact (congrArg Topology.nodes extended).trans (congrArg (· ++ _) drawn)

end Server

end CloudCanvas
