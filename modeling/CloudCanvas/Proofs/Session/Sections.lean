import CloudCanvas.Proofs.Session.Progress
import CloudCanvas.Store.Memory

/-!
# Edits and loads are isolated

Whatever order the events of calls come in, what a call sees of the drawing is what the calls
that had the lock to themselves before it have made of it one after another.  A load keeps the
lock from emptying the drawing until it has filled it again, so nobody sees the empty drawing
in between.

## Main definitions

* `BusySession.replay`: what calls that had the lock to themselves make of a drawing.
* `BusySession.Faithful`: what every schedule keeps.

The main statement is `BusySession.seen_eq_replay`.
-/

namespace CloudCanvas

variable {ι α σ : Type}

/-- What an edit or a read answers about a drawing. -/
def SessionCall.answer? (call : SessionCall α) (t : Topology) : Option α :=
  match call with
  | edit change => some (change t).1
  | read question => some (question t)
  | clear | save _ | load _ => none

theorem SessionCall.answer?_of_afterwards (call : SessionCall α) {seen t : Topology} {a : α}
    (h : call.afterwards seen = .finished t (.answered a)) : call.answer? t = some a := by
  cases call with
  | edit f | read f =>
      simp only [afterwards, CallPhase.finished.injEq, CallOutcome.answered.injEq] at h
      rw [answer?, ← h.1, h.2]
  | save name =>
      rw [afterwards] at h
      split at h <;> cases h
  | clear | load _ => cases h

theorem CallPhase.afterStore_ne_answered (seen : Topology) (reply : Except TransportFault ℕ)
    {t : Topology} {a : α} : afterStore seen reply ≠ .finished t (.answered a) := by
  intro same
  cases reply with
  | error fault => cases same
  | ok status =>
      rw [afterStore] at same
      split at same <;> cases same

/-! ## What the writers make of the drawing -/

/-- What a load of a reply draws if nothing is wrong with the reply. -/
def Session.design (reply : StoreReply) : Topology :=
  match reply with
  | .error _ => ∅
  | .ok (_, body) =>
    match readDesign body with
    | .ok archive => ((∅ : Topology).load archive).2
    | .error _ => ∅

/-- What a load leaves on the drawing: the design that it reports, or else nothing. -/
def LoadPhase.drawing : LoadPhase → Topology
  | .finished _ reply (.ok (.loaded _)) => Session.design reply
  | _ => ∅

theorem LoadPhase.drawing_of_stage_ne (phase : LoadPhase) (under_way : phase.stage ≠ .past) :
    phase.drawing = LoadPhase.asked.drawing := by
  cases phase <;> first | rfl | exact absurd rfl under_way

/-- A load that has emptied the session leaves what its result says. -/
theorem Session.topology_settle {s : Session} (vacant : s.topology = ∅) (ticket : ℕ)
    (name : String) (reply : StoreReply) :
    (s.settle ticket name reply).2.topology =
      (LoadPhase.finished ticket reply (s.settle ticket name reply).1).drawing := by
  rcases s.settle_cases ticket name reply with
    ⟨left, unloaded⟩ | ⟨_, status, body, archive, rfl, _, read, installed⟩
  · rw [left, vacant, LoadPhase.drawing.eq_2]
    rintro _ _ summary same
    injection same with _ _ loaded
    exact unloaded summary loaded
  · rw [installed, install, Topology.load]
    cases restored : archive.restore with
    | ok t => simp [LoadPhase.drawing, design, read, Topology.load, restored]
    | error e => simp [LoadPhase.drawing]

namespace BusySession

section Replay

variable [DecidableEq ι] {calls : ι → SessionCall α} {schedule : List (CallEvent ι)}
  {s s' : BusySession ι α σ} {i : ι} {t : Topology}

/-- What a call that had the lock to itself leaves of a drawing. -/
def leaves (calls : ι → SessionCall α) (s : BusySession ι α σ) (t : Topology) (i : ι) : Topology :=
  if (calls i).isLoad then (s.shared.phase i).drawing else (calls i).change t

/-- What calls that had the lock to themselves make of a drawing one after another. -/
def replay (calls : ι → SessionCall α) (s : BusySession ι α σ) (t : Topology) (order : List ι) :
    Topology :=
  order.foldl (s.leaves calls) t

omit [DecidableEq ι] in
theorem replay_congr {order : List ι}
    (same : ∀ j ∈ order, (s'.shared.phase j).drawing = (s.shared.phase j).drawing) :
    s'.replay calls t order = s.replay calls t order := by
  refine List.foldl_ext _ _ t fun t j mem => ?_
  rw [leaves, leaves, same j mem]

omit [DecidableEq ι] in
theorem replay_concat (order : List ι) :
    s.replay calls t (order ++ [i]) = s.leaves calls (s.replay calls t order) i := by
  simp [replay]

omit [DecidableEq ι] in
theorem replay_append_cons (earlier later : List ι) :
    s.replay calls t (earlier ++ i :: later) =
      s.replay calls (s.leaves calls (s.replay calls t earlier) i) later := by
  simp [replay]

omit [DecidableEq ι] in
/-- Calls that throw nothing away add up. -/
theorem replay_of_not_discards {order : List ι} (keep : ∀ k ∈ order, (calls k).discards = false) :
    s.replay calls t order = order.foldl (fun t k => (calls k).change t) t := by
  refine List.foldl_ext _ _ t fun t k mem => ?_
  have notLoad : (calls k).isLoad = false := by
    have := keep k mem
    cases call : calls k <;> simp_all [SessionCall.discards, SessionCall.isLoad]
  rw [leaves, notLoad]
  rfl

omit [DecidableEq ι] in
/-- What an edit has drawn is there, with what was drawn behind it, unless something behind it has
thrown it away. -/
theorem exists_split_of_edit {order : List ι} (listed : i ∈ order)
    {change : Topology → α × Topology} (call : calls i = .edit change) :
    ∃ earlier later, order = earlier ++ i :: later ∧
      ((∃ k ∈ later, (calls k).discards = true) ∨
        s.replay calls t order = later.foldl (fun t k => (calls k).change t)
          (change (s.replay calls t earlier)).2) := by
  obtain ⟨earlier, later, split⟩ := List.append_of_mem listed
  refine ⟨earlier, later, split, ?_⟩
  by_cases lost : ∃ k ∈ later, (calls k).discards = true
  · exact .inl lost
  · have keep : ∀ k ∈ later, (calls k).discards = false := by simpa using lost
    have drew : s.leaves calls (s.replay calls t earlier) i =
        (change (s.replay calls t earlier)).2 := by
      simp [leaves, call, SessionCall.isLoad, SessionCall.change]
    exact .inr (by rw [split, replay_append_cons, drew, replay_of_not_discards keep])

/-- What a call that has the lock to itself has done to the drawing that it found. -/
def Handles (calls : ι → SessionCall α) (s : BusySession ι α σ) (found : Topology) (i : ι) : Prop :=
  if (calls i).isLoad then s.drawing = ∅
  else match s.phase i with
    | .acted seen => seen = found ∧ s.drawing = (calls i).change found
    | _ => s.drawing = found

/-- What there is to see is what the writers have made of the drawing, as far as they are past the
lock. -/
structure Faithful (calls : ι → SessionCall α) (t : Topology) (schedule : List (CallEvent ι))
    (s : BusySession ι α σ) : Prop where
  free : s.lock.writer = none → s.drawing = s.replay calls t (CallEvent.writers calls schedule)
  held : ∀ i, s.lock.writer = some i → ∃ earlier,
    CallEvent.writers calls schedule = earlier ++ [i] ∧
      s.Handles calls (s.replay calls t earlier) i

variable [DesignStore σ]

/-- Only the end of a load shows in what loads leave. -/
theorem drawing_of_step {event : CallEvent ι} (step : s.step calls event = some s') {j : ι}
    (leaves : event ≠ .leave j) : (s'.shared.phase j).drawing = (s.shared.phase j).drawing :=
  result_of_step LoadPhase.drawing LoadPhase.drawing_of_stage_ne step leaves

theorem replay_of_step {event : CallEvent ι} (step : s.step calls event = some s')
    {order : List ι} (leaves : ∀ j ∈ order, event ≠ .leave j) :
    s'.replay calls t order = s.replay calls t order :=
  replay_congr fun j mem => drawing_of_step step (leaves j mem)

/-- An event that neither gets the lock for a writer nor gives it back for one, and that does
not touch the drawing, changes nothing about it. -/
theorem Faithful.of_same {event : CallEvent ι} (h : s.Faithful calls t schedule)
    (step : s.step calls event = some s') (lock_eq : s'.lock.writer = s.lock.writer)
    (drawing_eq : s'.drawing = s.drawing)
    (phase_eq : ∀ j, s.lock.writer = some j → s'.phase j = s.phase j)
    (writers_eq : CallEvent.writers calls (schedule ++ [event]) = CallEvent.writers calls schedule)
    (leaves : ∀ j ∈ CallEvent.writers calls schedule, event ≠ .leave j) :
    s'.Faithful calls t (schedule ++ [event]) where
  free free := by
    rw [lock_eq] at free
    rw [drawing_eq, writers_eq, h.free free]
    exact (replay_of_step step leaves).symm
  held i held := by
    rw [lock_eq] at held
    obtain ⟨earlier, order, handles⟩ := h.held i held
    refine ⟨earlier, writers_eq.trans order, ?_⟩
    have replayed : s'.replay calls t earlier = s.replay calls t earlier :=
      replay_of_step step fun j mem => leaves j (by simp [order, mem])
    rw [Handles, drawing_eq, phase_eq i held, replayed]
    exact handles

/-- Apart from the events of the lock and from those that look at the drawing, nothing happens to
the drawing, nor to the calls that have the lock, loads aside. -/
theorem quiet_cases {event : CallEvent ι} (step : s.step calls event = some s')
    (enters : ∀ i, event ≠ .enter i) (acts : ∀ i, event ≠ .act i)
    (leaves : ∀ i, event ≠ .leave i) :
    s'.drawing = s.drawing ∧ ∀ j, s.stage calls j = .inside → s'.phase j = s.phase j := by
  have other {i : ι} {next : CallPhase α} (outside : s.stage calls i ≠ .inside) (j : ι)
      (inside : s.stage calls j = .inside) : Function.update s.phase i next j = s.phase j := by
    have ne : j ≠ i := by
      rintro rfl
      exact outside inside
    rw [Function.update_of_ne ne]
  cases event with
  | enter i => exact absurd rfl (enters i)
  | act i => exact absurd rfl (acts i)
  | leave i => exact absurd rfl (leaves i)
  | takeTicket i =>
      obtain ⟨_, shared, taken, rfl⟩ := step_takeTicket_eq_some.1 step
      obtain ⟨_, _, rfl⟩ := SharedSession.step_takeTicket_eq_some.1 taken
      exact ⟨rfl, fun _ _ => rfl⟩
  | answer i =>
      obtain ⟨_, shared, answered, rfl⟩ := step_answer_eq_some.1 step
      obtain ⟨_, _, rfl⟩ := SharedSession.step_answer_eq_some.1 answered
      exact ⟨rfl, fun _ _ => rfl⟩
  | store i =>
      obtain ⟨_, seen, _, call, copied, _, rfl⟩ := step_store_eq_some.1 step
      exact ⟨rfl, other (by simp [stage, call, copied, SessionCall.isLoad, CallPhase.stage])⟩
  | name i =>
      obtain ⟨seen, call, emptied, rfl⟩ | ⟨_, seen, _, call, stored, rfl⟩ :=
        step_name_eq_some.1 step
      · exact ⟨rfl, other (by simp [stage, call, emptied, SessionCall.isLoad, CallPhase.stage])⟩
      · exact ⟨rfl, other (by simp [stage, call, stored, SessionCall.isLoad, CallPhase.stage])⟩

namespace Faithful

theorem enter (h : s.Faithful calls t schedule) (step : s.step calls (.enter i) = some s') :
    s'.Faithful calls t (schedule ++ [.enter i]) := by
  obtain ⟨⟨free, -⟩, -, lock_eq, -⟩ := enter_cases step
  have none_held : ∀ j, s.lock.writer ≠ some j := by simp [free]
  cases kind : (calls i).writes with
  | false =>
      have notLoad : (calls i).isLoad = false := by
        cases call : calls i <;> simp_all [SessionCall.isLoad, SessionCall.writes]
      obtain ⟨-, ⟨load, -⟩ | ⟨-, -, -, rfl⟩⟩ := step_enter_eq_some.1 step
      · simp [notLoad] at load
      · refine h.of_same step ?_ rfl (fun j held => absurd held (none_held j)) ?_ (by simp)
        · rw [lock_eq, Lock.enter, kind]
          rfl
        · rw [CallEvent.writers_append_enter, kind]
          rfl
  | true =>
      have order := CallEvent.writers_append_enter calls schedule i
      rw [kind, if_pos rfl] at order
      have writer : s'.lock.writer = some i := by rw [lock_eq, Lock.enter, kind]; rfl
      refine ⟨fun none_eq => by simp [writer] at none_eq, fun j held => ?_⟩
      obtain rfl : i = j := Option.some.inj (writer.symm.trans held)
      refine ⟨_, order, ?_⟩
      have replayed : s'.replay calls t (CallEvent.writers calls schedule) = s.drawing := by
        rw [h.free free]
        exact replay_of_step step fun j _ => by simp
      rw [Handles, replayed]
      obtain ⟨-, ⟨load, shared, entered, rfl⟩ | ⟨notLoad, -, -, rfl⟩⟩ := step_enter_eq_some.1 step
      · obtain ⟨ticket, -, -, rfl⟩ := SharedSession.step_enter_eq_some.1 entered
        rw [if_pos load]
        rfl
      · simp [notLoad, proceed, withLock, drawing]

theorem act (h : s.Faithful calls t schedule) (orderly : s.Orderly calls schedule)
    (step : s.step calls (.act i) = some s') : s'.Faithful calls t (schedule ++ [.act i]) := by
  have stage_eq := inside_of_act step
  obtain ⟨notLoad, inside, rfl⟩ := step_act_eq_some.1 step
  have order := CallEvent.writers_append_of_ne calls schedule (.act i) (by simp)
  cases kind : (calls i).writes with
  | false =>
      have free := orderly.guards.free_of_reader kind stage_eq
      refine h.of_same step rfl ?_ (fun j held => absurd free (by simp [held])) order (by simp)
      exact (calls i).change_of_not_writes kind s.drawing
  | true =>
      have held := (orderly.guards.writer_iff i).2 ⟨kind, stage_eq⟩
      obtain ⟨earlier, order', handles⟩ := h.held i held
      refine ⟨fun free => ?_, fun j held' => ?_⟩
      · cases held.symm.trans free
      · obtain rfl : i = j := Option.some.inj (held.symm.trans held')
        refine ⟨earlier, order.trans order', ?_⟩
        rw [Handles, notLoad, inside] at handles
        rw [Handles, notLoad, replay_of_step step fun j _ => by simp]
        simp_all [proceed, draw, drawing]

theorem leave (h : s.Faithful calls t schedule) (orderly : s.Orderly calls schedule)
    (step : s.step calls (.leave i) = some s') :
    s'.Faithful calls t (schedule ++ [.leave i]) := by
  obtain ⟨stage_eq, lock_eq, -⟩ := leave_cases step
  have order := CallEvent.writers_append_of_ne calls schedule (.leave i) (by simp)
  cases kind : (calls i).writes with
  | false =>
      have free := orderly.guards.free_of_reader kind stage_eq
      have writer : s'.lock.writer = s.lock.writer := by rw [lock_eq, Lock.leave, kind]; rfl
      have drawn : s'.drawing = s.drawing := by
        obtain ⟨load, -⟩ | ⟨-, seen, -, rfl⟩ := step_leave_eq_some.1 step
        · simp [SessionCall.writes_of_isLoad load] at kind
        · rfl
      refine h.of_same step writer drawn (fun j held => absurd free (by simp [held])) order ?_
      intro j mem eq
      obtain rfl := CallEvent.leave.inj eq
      simp [CallEvent.mem_writers_iff, kind] at mem
  | true =>
      have held := (orderly.guards.writer_iff i).2 ⟨kind, stage_eq⟩
      have writer : s'.lock.writer = none := by rw [lock_eq, Lock.leave, kind]; rfl
      obtain ⟨earlier, order', handles⟩ := h.held i held
      have new : ∀ j ∈ earlier, CallEvent.leave i ≠ .leave j := by
        intro j mem eq
        obtain rfl := CallEvent.leave.inj eq
        have nodup := orderly.nodup_writers
        rw [order', List.nodup_append] at nodup
        exact nodup.2.2 i mem i (by simp) rfl
      refine ⟨fun _ => ?_, fun j held' => by simp [writer] at held'⟩
      rw [order, order', replay_concat, replay_of_step step new]
      obtain ⟨load, shared, left, rfl⟩ | ⟨notLoad, seen, acted, rfl⟩ := step_leave_eq_some.1 step
      · obtain ⟨ticket, reply, answered, rfl⟩ := SharedSession.step_leave_eq_some.1 left
        rw [Handles, if_pos load] at handles
        rw [leaves, if_pos load]
        simpa [drawing] using Session.topology_settle handles ticket (loadNames calls i) reply
      · rw [Handles, notLoad, acted] at handles
        rw [leaves, notLoad]
        exact handles.2

/-- **An event keeps a session faithful.** -/
theorem step {event : CallEvent ι} (h : s.Faithful calls t schedule)
    (orderly : s.Orderly calls schedule) (step : s.step calls event = some s') :
    s'.Faithful calls t (schedule ++ [event]) := by
  -- the other events take place outside the lock, or while a load waits for the store
  have quiet (enters : ∀ i, event ≠ .enter i) (acts : ∀ i, event ≠ .act i)
      (leaves : ∀ i, event ≠ .leave i) : s'.Faithful calls t (schedule ++ [event]) := by
    obtain ⟨drawn, kept⟩ := quiet_cases step enters acts leaves
    refine h.of_same step (congrArg Lock.writer (stays_cases step enters leaves).1) drawn
      (fun j held => ?_) (CallEvent.writers_append_of_ne calls schedule event enters)
      fun j _ => leaves j
    exact kept j ((orderly.guards.writer_iff j).1 held).2
  cases event with
  | enter i => exact h.enter step
  | act i => exact h.act orderly step
  | leave i => exact h.leave orderly step
  | takeTicket _ | answer _ | store _ | name _ => exact quiet (by simp) (by simp) (by simp)

end Faithful

/-- **A schedule keeps a session faithful.** -/
theorem faithful_of_run {session : Session} {store : σ}
    (h : (atRest session store).run calls schedule = some s) :
    s.Orderly calls schedule ∧ s.Faithful calls session.topology schedule := by
  refine run_collects (P := fun schedule s => s.Orderly calls schedule ∧
    s.Faithful calls session.topology schedule) ⟨orderly_atRest session store, ?_⟩ ?_ h
  · exact ⟨fun _ => rfl, fun i held => by simp [lock, atRest, SharedSession.atRest] at held⟩
  · rintro before event m m' ⟨orderly, faithful⟩ step
    exact ⟨orderly.step step, faithful.step orderly step⟩

/-! ## What a call answers -/

/-- What an edit or a read answers is read off the drawing that it has seen. -/
theorem answer_of_step {event : CallEvent ι} (step : s.step calls event = some s')
    (before : ∀ i t a, s.phase i = .finished t (.answered a) → (calls i).answer? t = some a)
    {j : ι} {a : α} (answered : s'.phase j = .finished t (.answered a)) :
    (calls j).answer? t = some a := by
  obtain same | ⟨now, next, -, phase, turn⟩ := turn_of_step step j
  · exact before j t a (same ▸ answered)
  · rw [phase] at answered
    cases turn with
    | enter | act | forget _ | name _ => cases answered
    | leave _ => exact SessionCall.answer?_of_afterwards _ answered
    | store _ _ => exact absurd answered (CallPhase.afterStore_ne_answered _ _)

theorem answer_of_run {session : Session} {store : σ}
    (h : (atRest session store).run calls schedule = some s) {a : α}
    (answered : s.phase i = .finished t (.answered a)) : (calls i).answer? t = some a := by
  refine run_collects (P := fun _ m => ∀ i t a, m.phase i = .finished t (.answered a) →
    (calls i).answer? t = some a) (fun i t a started => by cases started) ?_ h i t a answered
  intro _ event m m' before step i t a
  exact answer_of_step step before

/-! ## What a call sees -/

/-- The lock is a call's own when it looks at the drawing: the writers before it are past, and
they have made what it sees. -/
theorem act_cases (faithful : s.Orderly calls schedule ∧ s.Faithful calls t schedule)
    (step : s.step calls (.act i) = some s') :
    s.drawing = s.replay calls t ((CallEvent.writers calls schedule).erase i) ∧
      ∀ j, j ∈ (CallEvent.writers calls schedule).erase i ↔
        .leave j ∈ schedule ∧ (calls j).writes = true := by
  obtain ⟨orderly, faithful⟩ := faithful
  have stage_eq := inside_of_act step
  obtain ⟨notLoad, inside, -⟩ := step_act_eq_some.1 step
  have nodup := orderly.nodup_writers
  refine ⟨?_, fun j => ?_⟩
  · cases kind : (calls i).writes with
    | false =>
        have unlisted : i ∉ CallEvent.writers calls schedule := by
          simp [CallEvent.mem_writers_iff, kind]
        rw [List.erase_of_not_mem unlisted]
        exact faithful.free (orderly.guards.free_of_reader kind stage_eq)
    | true =>
        have held := (orderly.guards.writer_iff i).2 ⟨kind, stage_eq⟩
        obtain ⟨earlier, order, handles⟩ := faithful.held i held
        rw [order, List.nodup_append] at nodup
        have unlisted : i ∉ earlier := fun mem => nodup.2.2 i mem i (by simp) rfl
        rw [Handles, notLoad, inside] at handles
        rw [order, List.erase_append_right _ unlisted]
        simpa using handles
  · rw [nodup.mem_erase_iff, CallEvent.mem_writers_iff, orderly.entered_iff, orderly.left_iff]
    constructor
    · rintro ⟨ne, entered, writes⟩
      refine ⟨?_, writes⟩
      cases other : s.stage calls j with
      | waiting => exact absurd other entered
      | past => rfl
      | inside => exact absurd (orderly.guards.eq_of_inside writes other stage_eq).symm ne
    · rintro ⟨past, writes⟩
      refine ⟨?_, by simp [past], writes⟩
      rintro rfl
      exact Stage.noConfusion (past.symm.trans stage_eq)

/-- An outcome that is an answer answers about the drawing that was seen. -/
theorem answer?_of_outcome {session : Session} {store : σ}
    (h : (atRest session store).run calls schedule = some s) {a : α}
    (outcome : s.outcome? calls i = some (.answered a)) (seen : (s.phase i).seen? = some t) :
    (calls i).answer? t = some a := by
  rw [outcome?] at outcome
  split at outcome
  · split at outcome <;> cases outcome
  · split at outcome
    · next drawing _ finished =>
        obtain rfl := Option.some.inj outcome
        obtain rfl : drawing = t := by simpa [finished, CallPhase.seen?] using seen
        exact answer_of_run h finished
    · cases outcome

/-- **What a call sees is what the calls that had the lock to themselves have made of the drawing
one after another.**  They are all past the lock when it looks, so no load is under way.  Its
answer is about what it has seen.  What an edit has drawn that is past the lock is there, with what
was drawn behind it, unless a clear or a load came behind it. -/
theorem seen_eq_replay {session : Session} {store : σ} {before after : List (CallEvent ι)}
    (h : (atRest session store).run calls (before ++ .act i :: after) = some s) :
    let order := (CallEvent.writers calls before).erase i
    let seen := s.replay calls session.topology order
    (order.Nodup ∧ ∀ j, j ∈ order ↔ .leave j ∈ before ∧ (calls j).writes = true) ∧
      (∀ j, (calls j).isLoad = true → .enter j ∈ before → .leave j ∈ before) ∧
      (s.phase i).seen? = some seen ∧
      (∀ a, s.outcome? calls i = some (.answered a) → (calls i).answer? seen = some a) ∧
      ∀ j change, calls j = .edit change → .leave j ∈ before →
        ∃ earlier later, order = earlier ++ j :: later ∧
          ((∃ k ∈ later, (calls k).discards = true) ∨
            seen = later.foldl (fun t k => (calls k).change t)
              (change (s.replay calls session.topology earlier)).2) := by
  intro order seen
  obtain ⟨m, m', first, act, last⟩ := run_append_cons_eq_some.1 h
  obtain ⟨orderly, faithful⟩ := faithful_of_run first
  obtain ⟨drawn, past_iff⟩ := act_cases ⟨orderly, faithful⟩ act
  -- what loads of `order` have drawn stays as it was when the call looked
  have settled : seen = m.replay calls session.topology order := by
    refine replay_congr fun j mem => ?_
    have past := (orderly.left_iff j).1 ((past_iff j).1 mem).1
    have now := past_of_step act past
    exact (result_of_run LoadPhase.drawing LoadPhase.drawing_of_stage_ne last now.2).trans
      (drawing_of_step act now.1)
  have looked : (s.phase i).seen? = some seen := by
    refine seen_of_run last ?_
    rw [settled, ← drawn]
    exact (seen_of_act act).2
  refine ⟨⟨orderly.nodup_writers.erase i, past_iff⟩, ?_, looked,
    fun a outcome => answer?_of_outcome h outcome looked, ?_⟩
  · intro j load entered
    obtain ⟨notLoad, -⟩ := step_act_eq_some.1 act
    have ne : j ≠ i := by
      rintro rfl
      simp [load] at notLoad
    have writes := SessionCall.writes_of_isLoad load
    have listed : j ∈ order :=
      orderly.nodup_writers.mem_erase_iff.2 ⟨ne, CallEvent.mem_writers_iff.2 ⟨entered, writes⟩⟩
    exact ((past_iff j).1 listed).1
  · intro j change call left
    exact exists_split_of_edit ((past_iff j).2 ⟨left, by rw [call]; rfl⟩) call

end Replay

/-! ## An edit behind a load -/

/-- An edit that adds a node, and answers how many there are then. -/
def addition (id : String) : SessionCall ℕ :=
  .edit fun t =>
    let (_, t) := t.apply (.addNode ⟨id, "public-ip", ∅, none, none⟩)
    (t.nodes.length, t)

/-- Two edits, a load between them, and a question about what is there. -/
def mixedCalls : Fin 4 → SessionCall ℕ
  | 0 => addition "old"
  | 1 => .load "edge"
  | 2 => addition "added"
  | 3 => .read fun t => t.nodes.length

/-- A store with one design, of one node. -/
def oneDesign : MemoryStore :=
  ⟨Dict.ofList [("edge", "\x7b\"nodes\":[\x7b\"id\":\"saved\",\"kind\":\"public-ip\"\x7d]\x7d")]⟩

/-- The load takes its ticket first, and gets the lock between the edits. -/
def mixedSchedule : List (CallEvent (Fin 4)) :=
  [.takeTicket 1, .enter 0, .act 0, .leave 0, .enter 1, .answer 1, .leave 1, .enter 2, .act 2,
    .leave 2, .enter 3]

/-- The node of the design, and that of the second edit. -/
def mixedDrawing : Topology :=
  ⟨[⟨"saved", "public-ip", ∅, none, none⟩, ⟨"added", "public-ip", ∅, none, none⟩], [], []⟩

/-- What the first edit has drawn the load has thrown away; what the second one has drawn is there
beside the design. -/
theorem seen_behind_load :
    ∃ s, (atRest .start oneDesign).run mixedCalls (mixedSchedule ++ .act 3 :: [.leave 3]) = some s ∧
      (s.phase 3).seen? = some (s.replay mixedCalls ∅ [0, 1, 2]) ∧
      s.replay mixedCalls ∅ [0, 1, 2] = mixedDrawing := by
  have done : ((atRest .start oneDesign).run mixedCalls
      (mixedSchedule ++ .act 3 :: [.leave 3])).map (fun s => s.replay mixedCalls ∅ [0, 1, 2]) =
        some mixedDrawing := by
    decide +kernel
  obtain ⟨s, run, drawn⟩ := Option.map_eq_some_iff.1 done
  exact ⟨s, run, (seen_eq_replay run).2.2.1, drawn⟩

end BusySession

end CloudCanvas
