import CloudCanvas.Archive.Codec
import CloudCanvas.Export.Build
import CloudCanvas.Store
import CloudCanvas.Topology.History

/-!
# Sessions

A session holds the drawing that is being worked on and the name under which it
was last saved or loaded.  A load first empties the session, then asks the store,
and installs what comes back unless a newer load has been asked for meanwhile; the
order of the loads is that of the tickets they take.

## Main definitions

* `Session`, `SessionError`, `SaveOutcome`, `LoadOutcome`.
* `Session.takeTicket`, `Session.vacate`, `Session.settle`: the steps of a load.
* `Session.save`, `Session.load`, `Session.clear`, `Session.edit`.
* `Session.race`: a load that is asked for while another waits for the store.
-/

namespace CloudCanvas

/-- What a store was asked to do. -/
inductive StoreOperation where
  | save
  | load
deriving DecidableEq

/-- The word for an operation. -/
def StoreOperation.word : StoreOperation → String
  | .save => "save"
  | .load => "load"

/-- Why a design could not be saved or loaded. -/
inductive SessionError where
  | emptyName
  | rejected (operation : StoreOperation) (status : Nat)
  | unreachable (fault : TransportFault)
  | emptyDesign
  | malformedDesign
  | inconsistent (error : IntegrityError)
deriving DecidableEq

/-- The wording of a store's fault. -/
def TransportFault.storeMessage (fault : TransportFault) : String :=
  "design store unreachable: " ++ fault.message

/-- The wording of an error. -/
def SessionError.message : SessionError → String
  | .emptyName => "design name must not be empty"
  | .rejected operation status =>
    "failed to " ++ operation.word ++ " the design. Error code: " ++ toString status
  | .unreachable fault => fault.storeMessage
  | .emptyDesign => "design payload is unreadable: design is empty"
  | .malformedDesign => "design payload is unreadable: not the text of a design"
  | .inconsistent error => error.message

/-- What came of saving. -/
inductive SaveOutcome where
  | saved (status : Nat)
  /-- There is nothing on the drawing, and the store was not asked. -/
  | nothingToSave
deriving DecidableEq

/-- What came of loading. -/
inductive LoadOutcome where
  | loaded (summary : LoadSummary)
  /-- A newer load was asked for, to which the session is left. -/
  | superseded
deriving DecidableEq

/-- A store's answer to a request for a design. -/
abbrev StoreReply := Except TransportFault (Nat × String)

/-- The drawing that is being worked on, the name it goes by, and how many loads
have been asked for.  The running program counts loads in 64 bits.  A ticket is only
ever compared for equality with the count, so the two counts tell the same tickets apart
until `2 ^ 64` loads have been asked for while one of them is still on its way, which no
session lives to see.  Hence the count here has no bound. -/
structure Session where
  topology : Topology
  name : Option String
  tickets : Nat
deriving DecidableEq

namespace Session

/-- A session at its start. -/
def start : Session := ⟨∅, none, 0⟩

instance : Inhabited Session := ⟨start⟩

/-! ## Loading -/

/-- Take the next ticket. -/
def takeTicket (s : Session) : Nat × Session :=
  (s.tickets + 1, { s with tickets := s.tickets + 1 })

/-- Empty the drawing and forget its name. -/
def vacate (s : Session) : Session :=
  { s with topology := ∅, name := none }

/-- The archive that the text of a design holds. -/
def readDesign (body : String) : Except SessionError Archive :=
  if isAllBlank body then .error .emptyDesign
  else match Archive.parse? body with
    | some archive => .ok archive
    | none => .error .malformedDesign

/-- Install what an archive describes under a name. -/
def install (s : Session) (name : String) (archive : Archive) :
    Except SessionError LoadOutcome × Session :=
  match s.topology.load archive with
  | (.ok summary, t) => (.ok (.loaded summary), { s with topology := t, name := some name })
  | (.error e, t) => (.error (.inconsistent e), { s with topology := t })

/-- End a load with the answer of the store. -/
def settle (s : Session) (ticket : Nat) (name : String) (reply : StoreReply) :
    Except SessionError LoadOutcome × Session :=
  match reply with
  | .error fault => (.error (.unreachable fault), s)
  | .ok (status, body) =>
    if !isSuccess status then (.error (.rejected .load status), s)
    else if s.tickets ≠ ticket then (.ok .superseded, s)
    else match readDesign body with
      | .error e => (.error e, s)
      | .ok archive => s.install name archive

variable {σ : Type} [DesignStore σ]

/-- A load that has its ticket: empty the session, ask the store, and end. -/
def loadWithTicket (s : Session) (store : σ) (ticket : Nat) (name : String) :
    Except SessionError LoadOutcome × Session × σ :=
  let (reply, store) := DesignStore.load store name
  let (result, s) := s.vacate.settle ticket name reply
  (result, s, store)

/-- Replace the drawing by a saved one. -/
def load (s : Session) (store : σ) (name : String) :
    Except SessionError LoadOutcome × Session × σ :=
  if isAllBlank name then (.error .emptyName, s, store)
  else
    let (ticket, s) := s.takeTicket
    s.loadWithTicket store ticket name

/-- Two loads, of which the second is asked for while the first waits for the
store.  The second can only take its ticket then; it goes on when the first has
ended. -/
def race (s : Session) (store : σ) (slow fast : String) :
    (Except SessionError LoadOutcome × Except SessionError LoadOutcome) × Session × σ :=
  if isAllBlank slow then
    let (result, s, store) := s.load store fast
    ((.error .emptyName, result), s, store)
  else
    let (slowTicket, s) := s.takeTicket
    if isAllBlank fast then
      let (result, s, store) := s.loadWithTicket store slowTicket slow
      ((result, .error .emptyName), s, store)
    else
      let (fastTicket, s) := s.takeTicket
      let (slowResult, s, store) := s.loadWithTicket store slowTicket slow
      let (fastResult, s, store) := s.loadWithTicket store fastTicket fast
      ((slowResult, fastResult), s, store)

/-! ## Saving -/

/-- Save the drawing under a name, by which it goes from then on. -/
def save (s : Session) (store : σ) (name : String) :
    Except SessionError SaveOutcome × Session × σ :=
  if isAllBlank name then (.error .emptyName, s, store)
  else match s.topology.archive? with
    | none => (.ok .nothingToSave, s, store)
    | some archive =>
      match DesignStore.save store name archive.text with
      | (.error fault, store) => (.error (.unreachable fault), s, store)
      | (.ok status, store) =>
        if isSuccess status then (.ok (.saved status), { s with name := some name }, store)
        else (.error (.rejected .save status), s, store)

/-! ## Drawing -/

/-- Start over. -/
def clear (s : Session) : Session :=
  s.vacate

/-- Make a change to the drawing. -/
def edit (s : Session) (edit : Edit) : EditOutcome × Session :=
  let (outcome, t) := s.topology.apply edit
  (outcome, { s with topology := t })

end Session

end CloudCanvas
