import CloudCanvas.Bicep.Export
import CloudCanvas.Server.Instructions
import CloudCanvas.Server.Request
import CloudCanvas.Session
import CloudCanvas.Topology.Batch

/-!
# The server

The server holds one session and one store and answers requests with a text.  An
answer can be an error; then the drawing is as it was, unless a load has failed.

## Main definitions

* `Answer`, `Server`.
* `Server.respond`: the answer to a request.
* `Server.respondToRace`: the answers to two loads that overlap.
-/

namespace CloudCanvas

/-- An answer to a request. -/
structure Answer where
  text : String
  isError : Bool
deriving DecidableEq

namespace Answer

/-- An answer that all went well. -/
def success (text : String) : Answer := ⟨text, false⟩

/-- An answer that something went wrong. -/
def failure (text : String) : Answer := ⟨text, true⟩

/-- Kinds that the catalog does not know, each once and in order. -/
def unknownKinds (kinds : List String) : List String :=
  (Dict.ofList ((kinds.filter (fun kind => (ResourceKind.ofTag? kind).isNone)).map (·, ()))).keys

/-- The text on elements that were added. -/
def added (count : Nat) (what : String) (unknown : List String) : String :=
  "Added " ++ toString count ++ " " ++ what ++ "(s)."
    ++ (if unknown.isEmpty then ""
      else " Not exported (unknown kind): " ++ ", ".intercalate unknown ++ ".")

/-- The answer to a save. -/
def ofSave (name : String) : Except SessionError SaveOutcome → Answer
  | .ok (.saved status) =>
    success ("Saved design '" ++ name ++ "' (status " ++ toString status ++ ").")
  | .ok .nothingToSave => success "There is nothing to save."
  | .error e => failure e.message

/-- The answer to a load. -/
def ofLoad (name : String) : Except SessionError LoadOutcome → Answer
  | .ok (.loaded summary) =>
    success ("Loaded design '" ++ name ++ "': " ++ toString summary.nodes ++ " node(s), "
      ++ toString summary.groups ++ " group(s), " ++ toString summary.links ++ " link(s).")
  | .ok .superseded => success ("Loading '" ++ name ++ "' was superseded by a newer load.")
  | .error e => failure ("Failed to load '" ++ name ++ "': " ++ e.message)

/-- The answer to a listing. -/
def ofList : Except TransportFault (List String) → Answer
  | .ok [] => success "No saved designs. Use save_design to create one."
  | .ok names => success ("\n".intercalate names)
  | .error fault => failure fault.storeMessage

/-- The answer to a removal. -/
def ofRemoval (removed missing : List String) : Answer :=
  success ("Deleted " ++ toString removed.length ++ " element(s)."
    ++ (if missing.isEmpty then "" else " Not found: " ++ ", ".intercalate missing ++ "."))

/-- The answer to an export. -/
def ofExport : Except ExportFailure (Option Artifact) → Answer
  | .ok (some artifact) => success artifact.content
  | .ok none => success "There is nothing to export."
  | .error e => failure e.message

/-- The drawing as text. -/
def ofDesign (t : Topology) : Answer :=
  match t.archive? with
  | some archive => success archive.prettyText
  | none => success "The design is empty. Use add_groups and add_nodes to start one."

end Answer

/-- A session and the store that it saves to. -/
structure Server (σ : Type) where
  session : Session
  store : σ

namespace Server

variable {σ : Type} [DesignStore σ]

/-- A server at its start. -/
def start (store : σ) : Server σ := ⟨.start, store⟩

/-- The server with another drawing. -/
def withTopology (server : Server σ) (t : Topology) : Server σ :=
  { server with session := { server.session with topology := t } }

/-- The drawing. -/
def topology (server : Server σ) : Topology :=
  server.session.topology

/-- End an edit that was tried on a copy of the drawing: the copy takes the place of the drawing,
or it is dropped with what was made of it until the refusal. -/
def commit {α : Type} (server : Server σ) (result : Except IntegrityError α)
    (topologyOf : α → Topology) (text : α → String) (trouble : String) : Answer × Server σ :=
  match result with
  | .ok done => (.success (text done), server.withTopology (topologyOf done))
  | .error e => (.failure (trouble ++ e.message), server)

/-- Add groups. -/
def addGroups (server : Server σ) (groups : List Group) : Answer × Server σ :=
  if groups.isEmpty then (.failure "No groups given.", server)
  else
    let unknown := Answer.unknownKinds (groups.map (·.kind))
    server.commit (server.topology.addGroups groups) id
      (fun _ => Answer.added groups.length "group" unknown) "No groups added: "

/-- Add nodes. -/
def addNodes (server : Server σ) (nodes : List Node) : Answer × Server σ :=
  if nodes.isEmpty then (.failure "No nodes given.", server)
  else
    let unknown := Answer.unknownKinds (nodes.map (·.kind))
    server.commit (server.topology.addNodes nodes) id
      (fun _ => Answer.added nodes.length "node" unknown) "No nodes added: "

/-- Add links. -/
def addLinks (server : Server σ) (links : List LinkDraft) : Answer × Server σ :=
  if links.isEmpty then (.failure "No links given.", server)
  else
    server.commit (server.topology.addLinks links) Prod.snd
      (fun done => "Added " ++ toString done.1.length ++ " link(s): "
        ++ ", ".intercalate done.1) "No links added: "

/-- Set properties of an element.  Without any to set, the element need not
exist. -/
def setProperties (server : Server σ) (id : String) (changes : Properties) : Answer × Server σ :=
  server.commit (server.topology.setProperties id changes) (fun t => t)
    (fun _ => "Updated " ++ toString changes.size ++ " property(ies) on '" ++ id ++ "'.") ""

/-- Remove elements. -/
def deleteElements (server : Server σ) (ids : List String) : Answer × Server σ :=
  let (removed, missing, t) := server.topology.removeAll ids
  (.ofRemoval removed missing, server.withTopology t)

/-- The answer to a request. -/
def respond (convert : String → Except ConvertError String) (server : Server σ) :
    Request → Answer × Server σ
  | .getRules => (.success modelingRules, server)
  | .getDesign => (.ofDesign server.topology, server)
  | .addGroups groups => server.addGroups groups
  | .addNodes nodes => server.addNodes nodes
  | .addLinks links => server.addLinks links
  | .setProperties id changes => server.setProperties id changes
  | .deleteElements ids => server.deleteElements ids
  | .clearDesign => (.success "Design cleared.", { server with session := server.session.clear })
  | .exportTemplate =>
    (.ofExport (Id.run (server.topology.exportAs (fun s => pure (convert s)) .json)), server)
  | .exportBicep =>
    (.ofExport (Id.run (server.topology.exportAs (fun s => pure (convert s)) .bicep)), server)
  | .saveDesign name =>
    let (result, session, store) := server.session.save server.store name
    (.ofSave name result, ⟨session, store⟩)
  | .loadDesign name =>
    let (result, session, store) := server.session.load server.store name
    (.ofLoad name result, ⟨session, store⟩)
  | .listDesigns =>
    let (result, store) := DesignStore.list server.store
    (.ofList result, { server with store := store })

/-- The answers to two loads, of which the second comes while the first waits for
the store. -/
def respondToRace (server : Server σ) (slow fast : String) : (Answer × Answer) × Server σ :=
  let ((slowResult, fastResult), session, store) := server.session.race server.store slow fast
  ((.ofLoad slow slowResult, .ofLoad fast fastResult), ⟨session, store⟩)

end Server

end CloudCanvas
