import CloudCanvas.Proofs.Session.Sections

/-!
# The name of a session

The drawing and the name of a session change apart.  A load changes both while it has the lock,
but a clear and a save name the session when they have given the lock back, and other calls can
have had it in between.

## Main definitions

* `BusySession.label`: the name that a call gives to the session.
* `BusySession.namer?`: the call that names the session in an event.

The main statements are `BusySession.name_of_run`, which says whose name the session has, and
`BusySession.name_eq_label_iff`, which says when that is the name of the last call that had the
lock to itself.
-/

namespace CloudCanvas

variable {ι α σ : Type}

/-- Whether a load has come to a design. -/
def LoadPhase.hasLoaded : LoadPhase → Bool
  | .finished _ _ (.ok (.loaded _)) => true
  | _ => false

theorem LoadPhase.hasLoaded_of_stage_ne (phase : LoadPhase) (under_way : phase.stage ≠ .past) :
    phase.hasLoaded = LoadPhase.asked.hasLoaded := by
  cases phase <;> first | rfl | exact absurd rfl under_way

theorem LoadPhase.hasLoaded_iff {phase : LoadPhase} :
    phase.hasLoaded = true ↔
      ∃ ticket reply summary, phase = .finished ticket reply (.ok (.loaded summary)) := by
  constructor
  · fun_cases hasLoaded phase with
    | case1 ticket reply summary => exact fun _ => ⟨ticket, reply, summary, rfl⟩
    | case2 => nofun
  · rintro ⟨_, _, _, rfl⟩
    rfl

/-- A load that ends names the session if it has come to a design, and only then. -/
theorem Session.name_settle (s : Session) (ticket : ℕ) (name : String) (reply : StoreReply) :
    (s.settle ticket name reply).2.name =
      if (LoadPhase.finished ticket reply (s.settle ticket name reply).1).hasLoaded then some name
      else s.name := by
  rcases s.settle_cases ticket name reply with
    ⟨left, unloaded⟩ | ⟨_, status, body, archive, rfl, _, read, installed⟩
  · rw [left, if_neg]
    intro loaded
    obtain ⟨_, _, summary, same⟩ := LoadPhase.hasLoaded_iff.1 loaded
    injection same with _ _ result
    exact unloaded summary result
  · rw [installed, install, Topology.load]
    cases restored : archive.restore <;> simp [LoadPhase.hasLoaded]

namespace BusySession

/-! ## Who names the session -/

/-- The name that a call gives to the session, none if it empties it. -/
def label (calls : ι → SessionCall α) (s : BusySession ι α σ) (i : ι) : Option String :=
  match calls i with
  | .save name => some name
  | .load name => if (s.shared.phase i).hasLoaded then some name else none
  | .edit _ | .read _ | .clear => none

/-- The call that names the session in an event: a load does so when it gets the lock, and again
when it gives it back with a design. -/
def namer? (calls : ι → SessionCall α) (s : BusySession ι α σ) : CallEvent ι → Option ι
  | .enter i => if (calls i).isLoad then some i else none
  | .leave i => if (calls i).isLoad && (s.shared.phase i).hasLoaded then some i else none
  | .name i => some i
  | .takeTicket _ | .act _ | .answer _ | .store _ => none

/-- The call that named the session last. -/
def lastNamer (calls : ι → SessionCall α) (s : BusySession ι α σ)
    (schedule : List (CallEvent ι)) : Option ι :=
  CallEvent.lastOf (s.namer? calls) schedule

variable [DecidableEq ι] {calls : ι → SessionCall α} {schedule : List (CallEvent ι)}
  {s s' : BusySession ι α σ} {i j : ι}

omit [DecidableEq ι] in
theorem label_congr (same : (s'.shared.phase j).hasLoaded = (s.shared.phase j).hasLoaded) :
    s'.label calls j = s.label calls j := by
  rw [label, label, same]

omit [DecidableEq ι] in
theorem label_of_isLoad (load : (calls i).isLoad = true) :
    s.label calls i =
      if (s.shared.phase i).hasLoaded then some (loadNames calls i) else none := by
  cases call : calls i <;> simp_all [label, SessionCall.isLoad, loadNames, SessionCall.loadName]

variable [DesignStore σ]

/-- What an event makes of the name: the call that names the session in it gives it its own. -/
theorem name_of_step {event : CallEvent ι} (step : s.step calls event = some s') :
    s'.shared.session.name =
      (s'.namer? calls event).elim s.shared.session.name (s'.label calls) := by
  cases event with
  | takeTicket i =>
      obtain ⟨-, shared, taken, rfl⟩ := step_takeTicket_eq_some.1 step
      obtain ⟨-, -, rfl⟩ := SharedSession.step_takeTicket_eq_some.1 taken
      rfl
  | enter i =>
      obtain ⟨-, ⟨load, shared, entered, rfl⟩ | ⟨notLoad, -, -, rfl⟩⟩ := step_enter_eq_some.1 step
      · obtain ⟨ticket, -, -, rfl⟩ := SharedSession.step_enter_eq_some.1 entered
        simp [namer?, load, label_of_isLoad load, LoadPhase.hasLoaded, Session.vacate]
      · simp [namer?, notLoad, proceed, withLock]
  | act i =>
      obtain ⟨-, -, rfl⟩ := step_act_eq_some.1 step
      rfl
  | answer i =>
      obtain ⟨-, shared, answered, rfl⟩ := step_answer_eq_some.1 step
      obtain ⟨ticket, -, rfl⟩ := SharedSession.step_answer_eq_some.1 answered
      rfl
  | leave i =>
      obtain ⟨load, shared, left, rfl⟩ | ⟨notLoad, seen, -, rfl⟩ := step_leave_eq_some.1 step
      · obtain ⟨ticket, reply, -, rfl⟩ := SharedSession.step_leave_eq_some.1 left
        rw [Session.name_settle]
        generalize outcome : (LoadPhase.finished ticket reply
          (s.shared.session.settle ticket (loadNames calls i) reply).1).hasLoaded = loaded
        cases loaded <;> simp [namer?, load, label_of_isLoad load, outcome]
      · simp [namer?, notLoad, proceed, withLock]
  | store i =>
      obtain ⟨_, _, _, _, _, _, rfl⟩ := step_store_eq_some.1 step
      rfl
  | name i =>
      obtain ⟨_, call, _, rfl⟩ | ⟨name, _, _, call, _, rfl⟩ := step_name_eq_some.1 step <;>
        simp [namer?, label, call, proceed, rename]

/-- Names do not change behind an event that names nothing. -/
theorem label_of_step {event : CallEvent ι} (step : s.step calls event = some s')
    (other : s'.namer? calls event ≠ some j) : s'.label calls j = s.label calls j := by
  by_cases leaves : event = .leave j
  · subst leaves
    obtain ⟨load, shared, left, rfl⟩ | ⟨notLoad, seen, -, rfl⟩ := step_leave_eq_some.1 step
    · obtain ⟨ticket, reply, answered, rfl⟩ := SharedSession.step_leave_eq_some.1 left
      refine label_congr ?_
      rw [answered]
      simpa [namer?, load, LoadPhase.hasLoaded] using other
    · rfl
  · exact label_congr
      (result_of_step LoadPhase.hasLoaded LoadPhase.hasLoaded_of_stage_ne step leaves)

/-- **The session has the name that the last call to name it gives it.** -/
theorem name_of_run (h : s.run calls schedule = some s') :
    s'.shared.session.name =
      (s'.lastNamer calls schedule).elim s.shared.session.name (s'.label calls) := by
  -- who names the session in the events so far is settled, since their loads are past the lock
  have kept := run_collects (P := fun schedule m =>
    (∀ j, .leave j ∈ schedule → m.stage calls j = .past) ∧
      m.shared.session.name =
        (m.lastNamer calls schedule).elim s.shared.session.name (m.label calls)) ?_ ?_ h
  · exact kept.2
  · simp [lastNamer, CallEvent.lastOf]
  · rintro before event m m' ⟨past, named⟩ step
    refine ⟨fun j mem => ?_, ?_⟩
    · rw [List.mem_append, List.mem_singleton] at mem
      rcases mem with mem | rfl
      · exact (past_of_step step (past j mem)).2
      · rw [(leave_cases step).2.2, Function.update_self]
    · have settled : m'.lastNamer calls before = m.lastNamer calls before := by
        refine CallEvent.lastOf_congr fun earlier mem => ?_
        cases earlier with
        | leave j =>
            have same := result_of_step LoadPhase.hasLoaded LoadPhase.hasLoaded_of_stage_ne step
              (past_of_step step (past j mem)).1
            rw [namer?, namer?, same]
        | takeTicket _ | enter _ | act _ | answer _ | store _ | name _ => rfl
      rw [name_of_step step, named, lastNamer.eq_1 calls m' (before ++ [event]),
        CallEvent.lastOf_append, ← lastNamer, settled]
      cases event_namer : m'.namer? calls event with
      | some j => rfl
      | none =>
          cases last : m.lastNamer calls before with
          | none => rfl
          | some j => exact (label_of_step step (by simp [event_namer])).symm

/-! ## The last call that had the lock to itself -/

/-- A clear that has had the lock and has nothing under way has forgotten the name. -/
theorem name_mem_of_clear {session : Session} {store : σ}
    (h : (atRest session store).run calls schedule = some s) (call : calls i = .clear)
    (rest : s.IsAtRest calls i) (entered : .enter i ∈ schedule) : .name i ∈ schedule := by
  have notLoad : (calls i).isLoad = false := by rw [call]; rfl
  have past := past_of_isAtRest rest (((orderly_of_run h).entered_iff i).1 entered)
  rw [stage_of_notLoad notLoad] at past
  rw [IsAtRest, notLoad] at rest
  have finished : ∃ seen outcome, s.phase i = .finished seen outcome := by
    cases phase : s.phase i <;> simp_all [CallPhase.IsAtRest, CallPhase.stage]
  obtain ⟨event, mem, m, before, after, turn, unfinished, seen, outcome, finished⟩ :=
    exists_turn (P := fun phase => ∃ seen outcome, phase = .finished seen outcome) (by simp) h
      finished
  cases turn with
  | enter | act => cases finished
  | leave _ =>
      rw [call] at finished
      cases finished
  | store save _ | name save => cases call.symm.trans save
  | forget _ => exact mem

section LastWriter

variable {session : Session} {store : σ} {before after : List (CallEvent ι)}

/-- A clear or a load that has nothing under way has named the session since it got the lock. -/
theorem lastNamer_ne_none
    (h : (atRest session store).run calls (before ++ .enter i :: after) = some s)
    (rest : s.IsAtRest calls i) (discards : (calls i).discards = true) :
    s.lastNamer calls (.enter i :: after) ≠ none := by
  cases call : calls i with
  | load name =>
      have namer : s.namer? calls (.enter i) = some i := by
        simp [namer?, call, SessionCall.isLoad]
      exact CallEvent.lastOf_ne_none List.mem_cons_self namer
  | clear =>
      obtain ⟨m, m', first, enter, -⟩ := run_append_cons_eq_some.1 h
      have waiting := (enter_cases enter).2.1
      have early : .name i ∉ before := fun early =>
        Stage.noConfusion (waiting.symm.trans (past_of_mem first (.inr early)).1)
      have mem : .name i ∈ after := by
        simpa [early] using name_mem_of_clear h call rest (by simp)
      exact CallEvent.lastOf_ne_none (List.mem_cons_of_mem _ mem) rfl
  | edit _ | read _ | save _ => simp [call, SessionCall.discards] at discards

/-- When no writer gets the lock any more and no save looks at the drawing, the session is named
only by calls that go on behind the lock, and that had given it back before. -/
theorem leave_mem_of_namer
    (h : (atRest session store).run calls (before ++ .enter i :: after) = some s)
    (writes : (calls i).writes = true)
    (lastWriter : ∀ j, .enter j ∈ after → (calls j).writes = false)
    (unsaved : ∀ j name, calls j = .save name → .act j ∉ after) (other : j ≠ i)
    {event : CallEvent ι} (mem : event ∈ .enter i :: after)
    (namer : s.namer? calls event = some j) :
    (calls j).goesOn = true ∧ .leave j ∈ before := by
  have orderly := orderly_of_run h
  have entered_before (past : s.stage calls j = .past) (writes : (calls j).writes = true) :
      .enter j ∈ before := by
    have behind : .enter j ∉ after := fun later => by simp [lastWriter j later] at writes
    simpa [other, behind] using (orderly.entered_iff j).2 (by simp [past])
  cases event with
  | takeTicket _ | act _ | answer _ | store _ => cases namer
  | enter k =>
      obtain ⟨load, rfl⟩ : (calls k).isLoad = true ∧ k = j := by simpa [namer?] using namer
      have later : .enter k ∈ after := by simpa [other] using mem
      exact absurd (lastWriter k later) (by simp [SessionCall.writes_of_isLoad load])
  | leave k =>
      obtain ⟨⟨load, -⟩, rfl⟩ : ((calls k).isLoad = true ∧ _) ∧ k = j := by
        simpa [namer?] using namer
      have later : .leave k ∈ after := by simpa using mem
      have past := (orderly.left_iff k).1 (by simp [later])
      have entered := entered_before past (SessionCall.writes_of_isLoad load)
      exact absurd later (leave_before_enter h writes entered).2
  | name k =>
      obtain rfl : k = j := Option.some.inj namer
      have later : .name k ∈ after := by simpa using mem
      have listed : .name k ∈ before ++ .enter i :: after := by simp [later]
      obtain ⟨past, goesOn⟩ := past_of_mem h (.inr listed)
      refine ⟨goesOn, (leave_before_enter h writes ?_).1⟩
      cases call : calls k with
      | clear => exact entered_before past (by rw [call]; rfl)
      | save name =>
          have acts : .act k ∈ before := by
            simpa [unsaved k name call] using act_mem_of_late h (.inr listed)
          obtain ⟨m, m', first, -, -⟩ := run_append_cons_eq_some.1 h
          exact enter_mem_of_act first (by rw [call]; rfl) acts
      | edit _ | read _ | load _ => simp [call, SessionCall.goesOn] at goesOn

/-- **Whose name a session has in the end.**  A clear or a load was the last call to get the lock
to itself, and no save has looked at the drawing since.  The session has the name of that call,
unless another call has named it behind it: a clear or a save that had given the lock back
before.  In that case the name is right just if the two names are the same. -/
theorem name_eq_label_iff
    (h : (atRest session store).run calls (before ++ .enter i :: after) = some s)
    (rest : ∀ j, s.IsAtRest calls j) (discards : (calls i).discards = true)
    (lastWriter : ∀ j, .enter j ∈ after → (calls j).writes = false)
    (unsaved : ∀ j name, calls j = .save name → .act j ∉ after) :
    ∃ j, s.lastNamer calls (.enter i :: after) = some j ∧
      (j = i ∨ (calls j).goesOn = true ∧ .leave j ∈ before) ∧
      s.shared.session.name = s.label calls j ∧
      (s.shared.session.name = s.label calls i ↔ s.label calls j = s.label calls i) := by
  have writes := SessionCall.writes_of_discards discards
  obtain ⟨j, lastNamer⟩ := Option.ne_none_iff_exists'.1 (lastNamer_ne_none h (rest i) discards)
  have name_eq : s.shared.session.name = s.label calls j := by
    rw [run_append, Option.bind_eq_some_iff] at h
    obtain ⟨m, -, behind⟩ := h
    rw [name_of_run behind, lastNamer]
    rfl
  refine ⟨j, lastNamer, ?_, name_eq, by rw [name_eq]⟩
  by_cases own : j = i
  · exact .inl own
  · obtain ⟨event, mem, namer⟩ := CallEvent.exists_of_lastOf lastNamer
    exact .inr (leave_mem_of_namer h writes lastWriter unsaved own mem namer)

end LastWriter

/-! ## A clear that names late -/

/-- A clear, and a load of a design. -/
def clearAndLoad : Bool → SessionCall ℕ
  | false => .clear
  | true => .load "edge"

/-- The clear has given the lock back when the load asks for it, and has not forgotten the name. -/
def clearBeforeLoad : List (CallEvent Bool) :=
  [.enter false, .act false, .leave false, .takeTicket true]

/-- The clear forgets the name while the load waits for the store, and the load sets it. -/
theorem name_set_behind_clear :
    ∃ s, (atRest .start oneDesign).run clearAndLoad
        (clearBeforeLoad ++ .enter true :: [.name false, .answer true, .leave true]) = some s ∧
      (∀ i, s.IsAtRest clearAndLoad i) ∧ s.shared.session.name = s.label clearAndLoad true ∧
      s.label clearAndLoad true = some "edge" := by
  obtain ⟨s, run, rest, namer, label⟩ : ∃ s, (atRest .start oneDesign).run clearAndLoad
      (clearBeforeLoad ++ .enter true :: [.name false, .answer true, .leave true]) = some s ∧
        (∀ i, s.IsAtRest clearAndLoad i) ∧
        s.lastNamer clearAndLoad (.enter true :: [.name false, .answer true, .leave true]) =
          some true ∧ s.label clearAndLoad true = some "edge" :=
    exists_run_of_any (by decide +kernel)
  have unsaved : ∀ i name, clearAndLoad i ≠ .save name := by
    intro i name
    cases i <;> nofun
  obtain ⟨j, last, -, -, name_iff⟩ :=
    name_eq_label_iff run rest rfl (by decide) fun i name save => absurd save (unsaved i name)
  obtain rfl : j = true := Option.some.inj (last.symm.trans namer)
  exact ⟨s, run, rest, name_iff.2 rfl, label⟩

/-- The clear forgets the name when the load has set it: the design of the load is there, and has
no name. -/
theorem name_lost_behind_load :
    ∃ s, (atRest .start oneDesign).run clearAndLoad
        (clearBeforeLoad ++ .enter true :: [.answer true, .leave true, .name false]) = some s ∧
      (∀ i, s.IsAtRest clearAndLoad i) ∧
      s.outcome? clearAndLoad true = some (.loaded (.ok (.loaded ⟨1, 0, 0⟩))) ∧
      s.label clearAndLoad true = some "edge" ∧ s.shared.session.name = none :=
  exists_run_of_any (by decide +kernel)

end BusySession

end CloudCanvas
