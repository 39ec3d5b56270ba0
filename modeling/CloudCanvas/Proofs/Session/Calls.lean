import CloudCanvas.Proofs.Session.Interleaving
import CloudCanvas.Proofs.Session.Lock

/-!
# Calls at the same time

Calls of every kind work on one session.  An edit, a clear and a load have the drawing to
themselves; reads and saves share it.  A clear and a save go on when they have given the lock of
the drawing back: the one forgets the name, the other asks the store and then sets the name.

## Main definitions

* `SessionCall`, `CallOutcome`, `SessionCall.perform`: calls, and what one of them does by itself.
* `CallPhase`, `CallEvent`, `BusySession`: calls under way, and what they do next.
* `BusySession.step`, `BusySession.run`: schedules of events.

The main statement is `BusySession.runsAlone`: the events of a call with nothing between
them come to what the call does by itself.
-/

namespace CloudCanvas

variable {ι α σ : Type}

/-! ## Calls -/

/-- What can be asked of a session.  A copy of the drawing, its archive and the template that is
built from it are read off the drawing like anything else. -/
inductive SessionCall (α : Type) where
  | edit (change : Topology → α × Topology)
  | read (question : Topology → α)
  | clear
  | save (name : String)
  | load (name : String)

/-- What a call reports. -/
inductive CallOutcome (α : Type) where
  | answered (answer : α)
  | cleared
  | saved (result : Except SessionError SaveOutcome)
  | loaded (result : Except SessionError LoadOutcome)
deriving DecidableEq

namespace SessionCall

/-- Whether a call needs the drawing to itself. -/
def writes : SessionCall α → Bool
  | edit _ | clear | load _ => true
  | read _ | save _ => false

/-- Whether a call is a load. -/
def isLoad : SessionCall α → Bool
  | load _ => true
  | edit _ | read _ | clear | save _ => false

/-- The name that a load asks for. -/
def loadName : SessionCall α → String
  | load name => name
  | edit _ | read _ | clear | save _ => ""

/-- Whether a call throws away what is on the drawing. -/
def discards : SessionCall α → Bool
  | clear | load _ => true
  | edit _ | read _ | save _ => false

/-- Whether a call goes on when it has given the lock back. -/
def goesOn : SessionCall α → Bool
  | clear | save _ => true
  | edit _ | read _ | load _ => false

/-- Whether a call lacks the name that it needs.  Such a call touches nothing. -/
def isNameless : SessionCall α → Bool
  | save name | load name => isAllBlank name
  | edit _ | read _ | clear => false

/-- What becomes of the drawing while a call other than a load has it. -/
def change (call : SessionCall α) (t : Topology) : Topology :=
  match call with
  | edit change => (change t).2
  | clear => ∅
  | read _ | save _ | load _ => t

/-- What a call does by itself. -/
def perform [DesignStore σ] (call : SessionCall α) (s : Session) (store : σ) :
    CallOutcome α × Session × σ :=
  match call with
  | edit change =>
    let (answer, topology) := change s.topology
    (.answered answer, { s with topology }, store)
  | read question => (.answered (question s.topology), s, store)
  | clear => (.cleared, s.clear, store)
  | save name =>
    let (result, s, store) := s.save store name
    (.saved result, s, store)
  | load name =>
    let (result, s, store) := s.load store name
    (.loaded result, s, store)

theorem writes_of_isLoad {call : SessionCall α} (load : call.isLoad = true) :
    call.writes = true := by
  cases call <;> first | rfl | cases load

theorem writes_of_discards {call : SessionCall α} (h : call.discards = true) :
    call.writes = true := by
  cases call <;> first | rfl | cases h

theorem isLoad_of_goesOn {call : SessionCall α} (h : call.goesOn = true) :
    call.isLoad = false := by
  cases call <;> first | rfl | cases h

/-- Only calls that write change the drawing. -/
theorem change_of_not_writes {call : SessionCall α} (reads : call.writes = false) (t : Topology) :
    call.change t = t := by
  cases call <;> first | rfl | cases reads

end SessionCall

/-! ## Calls under way -/

/-- How far a call has got that is not a load. -/
inductive CallPhase (α : Type) where
  | asked
  /-- The call has the lock, and has not looked yet. -/
  | inside
  /-- The call has looked at the drawing, and has changed it. -/
  | acted (seen : Topology)
  /-- A clear has given the lock back, and has the name still to forget. -/
  | emptied (seen : Topology)
  /-- A save has given the lock back, and has the store still to ask. -/
  | copied (seen : Topology)
  /-- The store has taken a design, and a save has the name still to set. -/
  | stored (seen : Topology) (status : ℕ)
  | finished (seen : Topology) (outcome : CallOutcome α)

/-- What a call does next. -/
inductive CallEvent (ι : Type) where
  /-- A load takes its ticket. -/
  | takeTicket (call : ι)
  /-- Get the lock; a load empties the session at once. -/
  | enter (call : ι)
  /-- Look at the drawing, and change it. -/
  | act (call : ι)
  /-- A load gets the answer of the store. -/
  | answer (call : ι)
  /-- Give the lock back; a load settles before. -/
  | leave (call : ι)
  /-- A save asks the store. -/
  | store (call : ι)
  /-- A save sets the name, or a clear forgets it. -/
  | name (call : ι)
deriving DecidableEq

/-- The call that an event takes further. -/
def CallEvent.call : CallEvent ι → ι
  | takeTicket i | enter i | act i | answer i | leave i | store i | name i => i

/-- A session that calls work on, and the store that they ask.  `shared` has the session, the
call that has the drawing to itself, and how far the loads have got. -/
structure BusySession (ι α σ : Type) where
  shared : SharedSession ι
  readers : Finset ι
  phase : ι → CallPhase α
  store : σ

instance (phase : LoadPhase) : Decidable phase.IsAtRest :=
  match phase with
  | .asked | .finished _ _ _ => isTrue trivial
  | .ticketed _ | .vacated _ | .answered _ _ => isFalse id

/-- Where a load is with regard to the lock. -/
def LoadPhase.stage : LoadPhase → Stage
  | asked | ticketed _ => .waiting
  | vacated _ | answered _ _ => .inside
  | finished _ _ _ => .past

namespace CallPhase

/-- Where a call is with regard to the lock. -/
def stage : CallPhase α → Stage
  | asked => .waiting
  | inside | acted _ => .inside
  | emptied _ | copied _ | stored _ _ | finished _ _ => .past

/-- The drawing that a call has seen. -/
def seen? : CallPhase α → Option Topology
  | asked | inside => none
  | acted seen | emptied seen | copied seen | stored seen _ | finished seen _ => some seen

/-- Whether a call has nothing under way. -/
def IsAtRest : CallPhase α → Prop
  | asked | finished _ _ => True
  | inside | acted _ | emptied _ | copied _ | stored _ _ => False

instance (phase : CallPhase α) : Decidable phase.IsAtRest :=
  match phase with
  | asked | finished _ _ => isTrue trivial
  | inside | acted _ | emptied _ | copied _ | stored _ _ => isFalse id

end CallPhase

/-- How far a call has got when it gives the lock back.  There is nothing to save of an empty
drawing. -/
def SessionCall.afterwards (call : SessionCall α) (seen : Topology) : CallPhase α :=
  match call with
  | edit change => .finished seen (.answered (change seen).1)
  | read question => .finished seen (.answered (question seen))
  | save _ =>
    if seen.archive?.isSome then .copied seen else .finished seen (.saved (.ok .nothingToSave))
  | clear | load _ => .emptied seen

/-- How far a save has got when the store has answered. -/
def CallPhase.afterStore (seen : Topology) : Except TransportFault ℕ → CallPhase α
  | .error fault => .finished seen (.saved (.error (.unreachable fault)))
  | .ok status =>
    if isSuccess status then .stored seen status
    else .finished seen (.saved (.error (.rejected .save status)))

theorem SessionCall.stage_afterwards (call : SessionCall α) (seen : Topology) :
    (call.afterwards seen).stage = .past := by
  cases call with
  | save name =>
      rw [afterwards]
      split <;> rfl
  | edit _ | read _ | clear | load _ => rfl

theorem SessionCall.seen?_afterwards (call : SessionCall α) (seen : Topology) :
    (call.afterwards seen).seen? = some seen := by
  cases call with
  | save name =>
      rw [afterwards]
      split <;> rfl
  | edit _ | read _ | clear | load _ => rfl

theorem CallPhase.stage_afterStore (seen : Topology) (reply : Except TransportFault ℕ) :
    (afterStore seen reply : CallPhase α).stage = .past := by
  cases reply with
  | error fault => rfl
  | ok status =>
      rw [afterStore]
      split <;> rfl

theorem CallPhase.seen?_afterStore (seen : Topology) (reply : Except TransportFault ℕ) :
    (afterStore seen reply : CallPhase α).seen? = some seen := by
  cases reply with
  | error fault => rfl
  | ok status =>
      rw [afterStore]
      split <;> rfl

namespace BusySession

/-- The drawing of the session. -/
def drawing (s : BusySession ι α σ) : Topology :=
  s.shared.session.topology

/-- Who has the lock of the drawing. -/
def lock (s : BusySession ι α σ) : Lock ι :=
  ⟨s.shared.holder, s.readers⟩

/-- Where a call is with regard to the lock. -/
def stage (calls : ι → SessionCall α) (s : BusySession ι α σ) (i : ι) : Stage :=
  if (calls i).isLoad then (s.shared.phase i).stage else (s.phase i).stage

/-- Whether a call has nothing under way. -/
def IsAtRest (calls : ι → SessionCall α) (s : BusySession ι α σ) (i : ι) : Prop :=
  if (calls i).isLoad then (s.shared.phase i).IsAtRest else (s.phase i).IsAtRest

instance (calls : ι → SessionCall α) (s : BusySession ι α σ) (i : ι) :
    Decidable (s.IsAtRest calls i) :=
  inferInstanceAs
    (Decidable (if (calls i).isLoad then (s.shared.phase i).IsAtRest else (s.phase i).IsAtRest))

/-- What a call that is over has reported. -/
def outcome? (calls : ι → SessionCall α) (s : BusySession ι α σ) (i : ι) :
    Option (CallOutcome α) :=
  if (calls i).isLoad then
    match s.shared.phase i with
    | .finished _ _ result => some (.loaded result)
    | _ => none
  else
    match s.phase i with
    | .finished _ outcome => some outcome
    | _ => none

/-- The session with another drawing. -/
def draw (s : BusySession ι α σ) (t : Topology) : BusySession ι α σ :=
  { s with shared := { s.shared with session := { s.shared.session with topology := t } } }

/-- The session under another name. -/
def rename (s : BusySession ι α σ) (name : Option String) : BusySession ι α σ :=
  { s with shared := { s.shared with session := { s.shared.session with name } } }

/-- The session with its lock in other hands. -/
def withLock (s : BusySession ι α σ) (lock : Lock ι) : BusySession ι α σ :=
  { s with shared := { s.shared with holder := lock.writer }, readers := lock.readers }

/-- A session that no call works on. -/
def atRest (session : Session) (store : σ) : BusySession ι α σ :=
  ⟨.atRest session, ∅, fun _ => .asked, store⟩

/-- The names that loads ask for. -/
def loadNames (calls : ι → SessionCall α) (i : ι) : String :=
  (calls i).loadName

variable [DecidableEq ι]

/-- The session with a call further on. -/
def proceed (s : BusySession ι α σ) (i : ι) (next : CallPhase α) : BusySession ι α σ :=
  { s with phase := Function.update s.phase i next }

/-- The session with a load further on, if what it does next is possible. -/
def advance? (calls : ι → SessionCall α) (s : BusySession ι α σ) (event : LoadEvent ι) :
    Option (BusySession ι α σ) :=
  (s.shared.step (loadNames calls) event).map fun shared => { s with shared }

variable [DesignStore σ]

/-- Go on with a call, if what it does next is possible. -/
def step (calls : ι → SessionCall α) (s : BusySession ι α σ) :
    CallEvent ι → Option (BusySession ι α σ)
  | .takeTicket i => if (calls i).isLoad then s.advance? calls (.takeTicket i) else none
  | .enter i =>
    if s.lock.Admits (calls i).writes then
      if (calls i).isLoad then s.advance? calls (.enter i)
      else match s.phase i with
        | .asked =>
          if (calls i).isNameless then none
          else some ((s.withLock (s.lock.enter (calls i).writes i)).proceed i .inside)
        | _ => none
    else none
  | .act i =>
    if (calls i).isLoad then none
    else match s.phase i with
      | .inside => some ((s.draw ((calls i).change s.drawing)).proceed i (.acted s.drawing))
      | _ => none
  | .answer i =>
    if (calls i).isLoad then
      let (reply, store) := DesignStore.load s.store (calls i).loadName
      (s.advance? calls (.answer i reply)).map fun next => { next with store }
    else none
  | .leave i =>
    if (calls i).isLoad then s.advance? calls (.leave i)
    else match s.phase i with
      | .acted seen =>
        some ((s.withLock (s.lock.leave (calls i).writes i)).proceed i ((calls i).afterwards seen))
      | _ => none
  | .store i =>
    match calls i, s.phase i with
    | .save name, .copied seen =>
      seen.archive?.map fun archive =>
        let (reply, store) := DesignStore.save s.store name archive.text
        { s.proceed i (.afterStore seen reply) with store }
    | _, _ => none
  | .name i =>
    match calls i, s.phase i with
    | .clear, .emptied seen => some ((s.rename none).proceed i (.finished seen .cleared))
    | .save name, .stored seen status =>
      some ((s.rename (some name)).proceed i (.finished seen (.saved (.ok (.saved status)))))
    | _, _ => none

/-- Go through a schedule. -/
def run (calls : ι → SessionCall α) (s : BusySession ι α σ) (schedule : List (CallEvent ι)) :
    Option (BusySession ι α σ) :=
  schedule.foldlM (step calls) s

@[simp] theorem run_nil (calls : ι → SessionCall α) (s : BusySession ι α σ) :
    s.run calls [] = some s := rfl

theorem run_cons (calls : ι → SessionCall α) (s : BusySession ι α σ) (event : CallEvent ι)
    (later : List (CallEvent ι)) :
    s.run calls (event :: later) = (s.step calls event).bind fun next => next.run calls later := rfl

theorem run_append (calls : ι → SessionCall α) (s : BusySession ι α σ)
    (before after : List (CallEvent ι)) :
    s.run calls (before ++ after) = (s.run calls before).bind fun next => next.run calls after := by
  rw [run, List.foldlM_append]
  rfl

theorem run_append_cons_eq_some {calls : ι → SessionCall α} {s s' : BusySession ι α σ}
    {before after : List (CallEvent ι)} {event : CallEvent ι} :
    s.run calls (before ++ event :: after) = some s' ↔
      ∃ m m', s.run calls before = some m ∧ m.step calls event = some m' ∧
        m'.run calls after = some s' := by
  simp [run_append, run_cons, Option.bind_eq_some_iff]

/-- What a schedule comes to can be found out by going through it. -/
theorem exists_run_of_any {calls : ι → SessionCall α} {s : BusySession ι α σ}
    {schedule : List (CallEvent ι)} {P : BusySession ι α σ → Prop} [DecidablePred P]
    (h : ((s.run calls schedule).any fun s' => decide (P s')) = true) :
    ∃ s', s.run calls schedule = some s' ∧ P s' := by
  obtain ⟨s', done, holds⟩ := (Option.any_eq_true _ _).1 h
  exact ⟨s', done, of_decide_eq_true holds⟩

/-- What holds at the start and is kept by every event holds behind a schedule. -/
theorem run_collects {calls : ι → SessionCall α}
    {P : List (CallEvent ι) → BusySession ι α σ → Prop} {s s' : BusySession ι α σ} (start : P [] s)
    (one_more : ∀ before event m m', P before m → m.step calls event = some m' →
      P (before ++ [event]) m')
    {schedule : List (CallEvent ι)} (h : s.run calls schedule = some s') : P schedule s' := by
  induction schedule using List.reverseRecOn generalizing s' with
  | nil =>
      obtain rfl := Option.some.inj h
      exact start
  | append_singleton before event ih =>
      rw [run_append, Option.bind_eq_some_iff] at h
      obtain ⟨m, first, last⟩ := h
      have step : m.step calls event = some s' := by simpa [run_cons] using last
      exact one_more before event m s' (ih first) step

/-! ## What an event does -/

variable {calls : ι → SessionCall α} {s s' : BusySession ι α σ} {i : ι}

theorem step_takeTicket_eq_some :
    s.step calls (.takeTicket i) = some s' ↔
      (calls i).isLoad = true ∧ ∃ shared,
        s.shared.step (loadNames calls) (.takeTicket i) = some shared ∧
          { s with shared } = s' := by
  rw [step]
  cases (calls i).isLoad <;> simp [advance?]

theorem step_enter_eq_some :
    s.step calls (.enter i) = some s' ↔
      s.lock.Admits (calls i).writes ∧
        (((calls i).isLoad = true ∧ ∃ shared,
            s.shared.step (loadNames calls) (.enter i) = some shared ∧ { s with shared } = s') ∨
          ((calls i).isLoad = false ∧ (calls i).isNameless = false ∧ s.phase i = .asked ∧
            (s.withLock (s.lock.enter (calls i).writes i)).proceed i .inside = s')) := by
  rw [step]
  by_cases admits : s.lock.Admits (calls i).writes
  · cases (calls i).isLoad <;> cases phase : s.phase i <;> simp [advance?, admits]
  · simp [admits]

theorem step_act_eq_some :
    s.step calls (.act i) = some s' ↔
      (calls i).isLoad = false ∧ s.phase i = .inside ∧
        (s.draw ((calls i).change s.drawing)).proceed i (.acted s.drawing) = s' := by
  rw [step]
  cases (calls i).isLoad <;> cases phase : s.phase i <;> simp

theorem step_answer_eq_some :
    s.step calls (.answer i) = some s' ↔
      (calls i).isLoad = true ∧ ∃ shared,
        s.shared.step (loadNames calls)
            (.answer i (DesignStore.load s.store (calls i).loadName).1) = some shared ∧
          { s with shared, store := (DesignStore.load s.store (calls i).loadName).2 } = s' := by
  rw [step]
  cases (calls i).isLoad <;> simp [advance?]

theorem step_leave_eq_some :
    s.step calls (.leave i) = some s' ↔
      ((calls i).isLoad = true ∧ ∃ shared,
          s.shared.step (loadNames calls) (.leave i) = some shared ∧ { s with shared } = s') ∨
        ((calls i).isLoad = false ∧ ∃ seen, s.phase i = .acted seen ∧
          (s.withLock (s.lock.leave (calls i).writes i)).proceed i
            ((calls i).afterwards seen) = s') := by
  rw [step]
  cases (calls i).isLoad <;> cases phase : s.phase i <;> simp [advance?]

theorem step_store_eq_some :
    s.step calls (.store i) = some s' ↔
      ∃ name seen archive, calls i = .save name ∧ s.phase i = .copied seen ∧
        seen.archive? = some archive ∧
          { s.proceed i (.afterStore seen (DesignStore.save s.store name archive.text).1) with
            store := (DesignStore.save s.store name archive.text).2 } = s' := by
  rw [step]
  cases call : calls i <;> cases phase : s.phase i <;> simp

theorem step_name_eq_some :
    s.step calls (.name i) = some s' ↔
      (∃ seen, calls i = .clear ∧ s.phase i = .emptied seen ∧
          (s.rename none).proceed i (.finished seen .cleared) = s') ∨
        ∃ name seen status, calls i = .save name ∧ s.phase i = .stored seen status ∧
          (s.rename (some name)).proceed i
            (.finished seen (.saved (.ok (.saved status)))) = s' := by
  rw [step]
  cases call : calls i <;> cases phase : s.phase i <;> simp

/-! ## A call by itself -/

/-- The events of a call come to what the call does by itself. -/
def RunsAlone (calls : ι → SessionCall α) (i : ι) (session : Session) (store : σ) : Prop :=
  ∃ schedule, (∀ event ∈ schedule, event.call = i) ∧
    ((atRest session store).run calls schedule).map
        (fun final => (final.outcome? calls i, final.shared.session, final.store)) =
      some (((calls i).perform session store).map some id)

theorem runsAlone_load {name : String} (call : calls i = .load name)
    (named : isAllBlank name = false) (session : Session) (store : σ) :
    RunsAlone calls i session store := by
  refine ⟨[.takeTicket i, .enter i, .answer i, .leave i], by simp [CallEvent.call], ?_⟩
  simp [run, step, atRest, advance?, SharedSession.step, SharedSession.atRest, loadNames, lock,
    Lock.Admits, outcome?, call, SessionCall.isLoad, SessionCall.loadName, SessionCall.perform,
    named, Session.load, Session.loadWithTicket]

/-- A call other than a load gets the lock, acts, and gives the lock back.  It runs alone if what
it does then comes to what it does by itself. -/
theorem runsAlone_of_rest (notLoad : (calls i).isLoad = false)
    (named : (calls i).isNameless = false) {session : Session} {store : σ}
    (rest : List (CallEvent ι)) (own : ∀ event ∈ rest, event.call = i)
    (done : ∀ s : BusySession ι α σ,
      s.shared.session = { session with topology := (calls i).change session.topology } →
        s.phase i = (calls i).afterwards session.topology → s.store = store →
          (s.run calls rest).map
              (fun final => (final.outcome? calls i, final.shared.session, final.store)) =
            some (((calls i).perform session store).map some id)) :
    RunsAlone calls i session store := by
  have entered : ∃ s : BusySession ι α σ,
      (atRest session store).run calls [.enter i, .act i, .leave i] = some s ∧
        s.shared.session = { session with topology := (calls i).change session.topology } ∧
        s.phase i = (calls i).afterwards session.topology ∧ s.store = store := by
    cases kind : (calls i).writes <;>
      simp [run, step, atRest, SharedSession.atRest, notLoad, named, kind, lock, Lock.Admits,
        Lock.enter, Lock.leave, withLock, draw, drawing, proceed]
  obtain ⟨s, through, drawn, phase, unasked⟩ := entered
  refine ⟨[.enter i, .act i, .leave i] ++ rest, ?_, ?_⟩
  · simpa [CallEvent.call, or_imp, forall_and] using own
  · rw [run_append, through]
    exact done s drawn phase unasked

theorem runsAlone_edit {change : Topology → α × Topology} (call : calls i = .edit change)
    (session : Session) (store : σ) : RunsAlone calls i session store := by
  refine runsAlone_of_rest (by rw [call]; rfl) (by rw [call]; rfl) [] (by simp)
    fun s drawn phase unasked => ?_
  simp only [call, SessionCall.change, SessionCall.afterwards] at drawn phase
  simp [drawn, phase, unasked, outcome?, call, SessionCall.isLoad, SessionCall.perform]

theorem runsAlone_read {question : Topology → α} (call : calls i = .read question)
    (session : Session) (store : σ) : RunsAlone calls i session store := by
  refine runsAlone_of_rest (by rw [call]; rfl) (by rw [call]; rfl) [] (by simp)
    fun s drawn phase unasked => ?_
  simp only [call, SessionCall.change, SessionCall.afterwards] at drawn phase
  simp [drawn, phase, unasked, outcome?, call, SessionCall.isLoad, SessionCall.perform]

theorem runsAlone_clear (call : calls i = .clear) (session : Session) (store : σ) :
    RunsAlone calls i session store := by
  refine runsAlone_of_rest (by rw [call]; rfl) (by rw [call]; rfl) [.name i]
    (by simp [CallEvent.call]) fun s drawn phase unasked => ?_
  simp only [call, SessionCall.change, SessionCall.afterwards] at drawn phase
  simp [run_cons, step, drawn, phase, unasked, outcome?, call, SessionCall.isLoad,
    SessionCall.perform, rename, proceed, Session.clear, Session.vacate]

theorem runsAlone_save {name : String} (call : calls i = .save name)
    (named : isAllBlank name = false) (session : Session) (store : σ) :
    RunsAlone calls i session store := by
  have notLoad : (calls i).isLoad = false := by rw [call]; rfl
  have hasName : (calls i).isNameless = false := by rw [call]; exact named
  -- how far a save gets depends on what there is to save and on what the store says to it
  cases written : session.topology.archive? with
  | none =>
      refine runsAlone_of_rest notLoad hasName [] (by simp) fun s drawn phase unasked => ?_
      simp only [call, SessionCall.change, SessionCall.afterwards, written] at drawn phase
      simp [drawn, phase, unasked, outcome?, call, SessionCall.isLoad, SessionCall.perform,
        Session.save, named, written]
  | some archive =>
      cases reply : DesignStore.save store name archive.text with
      | mk answer next =>
      cases answer with
      | error fault =>
          refine runsAlone_of_rest notLoad hasName [.store i] (by simp [CallEvent.call])
            fun s drawn phase unasked => ?_
          simp only [call, SessionCall.change, SessionCall.afterwards, written] at drawn phase
          simp [run_cons, step, drawn, phase, unasked, outcome?, call, SessionCall.isLoad,
            SessionCall.perform, Session.save, named, written, reply, proceed, CallPhase.afterStore]
      | ok status =>
          cases success : isSuccess status with
          | false =>
              refine runsAlone_of_rest notLoad hasName [.store i] (by simp [CallEvent.call])
                fun s drawn phase unasked => ?_
              simp only [call, SessionCall.change, SessionCall.afterwards, written] at drawn phase
              simp [run_cons, step, drawn, phase, unasked, outcome?, call, SessionCall.isLoad,
                SessionCall.perform, Session.save, named, written, reply, proceed,
                CallPhase.afterStore, success]
          | true =>
              refine runsAlone_of_rest notLoad hasName [.store i, .name i]
                (by simp [CallEvent.call]) fun s drawn phase unasked => ?_
              simp only [call, SessionCall.change, SessionCall.afterwards, written] at drawn phase
              simp [run_cons, step, drawn, phase, unasked, outcome?, call, SessionCall.isLoad,
                SessionCall.perform, Session.save, named, written, reply, proceed,
                CallPhase.afterStore, success, rename]

/-- **With nothing between them, the events of a call come to what the call does by itself.** -/
theorem runsAlone (named : (calls i).isNameless = false) (session : Session) (store : σ) :
    RunsAlone calls i session store := by
  cases call : calls i with
  | edit change => exact runsAlone_edit call session store
  | read question => exact runsAlone_read call session store
  | clear => exact runsAlone_clear call session store
  | save name => exact runsAlone_save call (by rwa [call] at named) session store
  | load name => exact runsAlone_load call (by rwa [call] at named) session store

end BusySession

end CloudCanvas
