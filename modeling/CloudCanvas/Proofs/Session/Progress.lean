import CloudCanvas.Proofs.Session.Order

/-!
# How far calls have got

A call goes through its events in their order and through none of them twice.  So what it has
come to tells which of its events a schedule has, and the other way round; and what it has seen,
reported or loaded stays so.

## Main definitions

* `CallPhase.Turn`: how an event takes a call further.
* `CallPhase.HasStored`: the store has taken the design of a save.

The main statements are `BusySession.past_of_run`, `BusySession.result_of_run`,
`BusySession.seen_of_run` and `BusySession.act_mem_iff`.
-/

namespace CloudCanvas

variable {ι α σ : Type}

theorem CallPhase.seen?_of_stage {phase : CallPhase α} (past : phase.stage = .past) :
    phase.seen?.isSome = true := by
  cases phase <;> first | rfl | cases past

theorem CallPhase.stage_ne_of_seen? {phase : CallPhase α} (seen : phase.seen?.isSome = true) :
    phase.stage ≠ .waiting := by
  cases phase <;> simp_all [stage, seen?]

/-- Whether the store has taken the design of a save. -/
def CallPhase.HasStored : CallPhase α → Prop
  | stored _ _ | finished _ (.saved (.ok (.saved _))) => True
  | _ => False

/-- Where an event takes a call that is not a load, beside a drawing and a store. -/
inductive CallPhase.Turn [DesignStore σ] (call : SessionCall α) (t : Topology) (store : σ) (i : ι) :
    CallEvent ι → CallPhase α → CallPhase α → Prop where
  | enter : Turn call t store i (.enter i) .asked .inside
  | act : Turn call t store i (.act i) .inside (.acted t)
  | leave (seen : Topology) : Turn call t store i (.leave i) (.acted seen) (call.afterwards seen)
  | store {name : String} {seen : Topology} {archive : Archive} (save : call = .save name)
      (written : seen.archive? = some archive) :
      Turn call t store i (.store i) (.copied seen)
        (.afterStore seen (DesignStore.save store name archive.text).1)
  | forget {seen : Topology} (clear : call = .clear) :
      Turn call t store i (.name i) (.emptied seen) (.finished seen .cleared)
  | name {name : String} {seen : Topology} {status : ℕ} (save : call = .save name) :
      Turn call t store i (.name i) (.stored seen status)
        (.finished seen (.saved (.ok (.saved status))))

namespace BusySession

variable [DecidableEq ι] {calls : ι → SessionCall α} {schedule : List (CallEvent ι)}
  {s s' : BusySession ι α σ} {i j : ι} {t : Topology}

omit [DecidableEq ι] in
theorem stage_of_notLoad (notLoad : (calls i).isLoad = false) :
    s.stage calls i = (s.phase i).stage := by
  rw [stage, notLoad]
  rfl

omit [DecidableEq ι] in
/-- A call that has got the lock and has nothing under way is past it. -/
theorem past_of_isAtRest (rest : s.IsAtRest calls i) (entered : s.stage calls i ≠ .waiting) :
    s.stage calls i = .past := by
  rw [IsAtRest] at rest
  rw [stage] at entered ⊢
  split at rest
  · cases phase : s.shared.phase i <;>
      simp_all [LoadPhase.IsAtRest, LoadPhase.stage]
  · cases phase : s.phase i <;> simp_all [CallPhase.IsAtRest, CallPhase.stage]

variable [DesignStore σ]

/-- An event takes its own call further, and leaves the others alone. -/
theorem turn_of_step {event : CallEvent ι} (step : s.step calls event = some s') (j : ι) :
    s'.phase j = s.phase j ∨ ∃ now next, s.phase j = now ∧ s'.phase j = next ∧
      CallPhase.Turn (calls j) s.drawing s.store j event now next := by
  have moved {i : ι} {now next : CallPhase α} (phase : s.phase i = now)
      (phases : s'.phase = Function.update s.phase i next)
      (turn : CallPhase.Turn (calls i) s.drawing s.store i event now next) :
      s'.phase j = s.phase j ∨ ∃ now next, s.phase j = now ∧ s'.phase j = next ∧
        CallPhase.Turn (calls j) s.drawing s.store j event now next := by
    rw [phases]
    by_cases eq : j = i
    · subst eq
      exact .inr ⟨now, next, phase, Function.update_self _ _ _, turn⟩
    · exact .inl (Function.update_of_ne eq _ _)
  cases event with
  | takeTicket i =>
      obtain ⟨_, _, _, rfl⟩ := step_takeTicket_eq_some.1 step
      exact .inl rfl
  | enter i =>
      obtain ⟨_, ⟨_, _, _, rfl⟩ | ⟨_, _, asked, rfl⟩⟩ := step_enter_eq_some.1 step
      · exact .inl rfl
      · exact moved asked rfl .enter
  | act i =>
      obtain ⟨_, inside, rfl⟩ := step_act_eq_some.1 step
      exact moved inside rfl .act
  | answer i =>
      obtain ⟨_, _, _, rfl⟩ := step_answer_eq_some.1 step
      exact .inl rfl
  | leave i =>
      obtain ⟨_, _, _, rfl⟩ | ⟨_, seen, acted, rfl⟩ := step_leave_eq_some.1 step
      · exact .inl rfl
      · exact moved acted rfl (.leave seen)
  | store i =>
      obtain ⟨_, _, _, save, copied, written, rfl⟩ := step_store_eq_some.1 step
      exact moved copied rfl (.store save written)
  | name i =>
      obtain ⟨_, clear, emptied, rfl⟩ | ⟨_, _, _, save, stored, rfl⟩ := step_name_eq_some.1 step
      · exact moved emptied rfl (.forget clear)
      · exact moved stored rfl (.name save)

/-- How far a call has got was brought about by one of its events. -/
theorem exists_turn {P : CallPhase α → Prop} (start : ¬ P .asked) {session : Session} {store : σ}
    (h : (atRest session store).run calls schedule = some s) (now : P (s.phase i)) :
    ∃ event ∈ schedule, ∃ (m : BusySession ι α σ) (before after : CallPhase α),
      CallPhase.Turn (calls i) m.drawing m.store i event before after ∧ ¬ P before ∧ P after := by
  refine run_collects (P := fun schedule m => P (m.phase i) →
    ∃ event ∈ schedule, ∃ (m : BusySession ι α σ) (before after : CallPhase α),
      CallPhase.Turn (calls i) m.drawing m.store i event before after ∧ ¬ P before ∧ P after)
    (fun initial => absurd initial start) ?_ h now
  intro earlier event m m' found step holds
  by_cases already : P (m.phase i)
  · obtain ⟨turning, mem, rest⟩ := found already
    exact ⟨turning, List.mem_append_left _ mem, rest⟩
  · obtain same | ⟨before, after, rfl, rfl, turn⟩ := turn_of_step step i
    · exact absurd (same ▸ holds) already
    · exact ⟨event, by simp, m, _, _, turn, already, holds⟩

/-! ## Behind the lock -/

/-- A call that has given the lock back does not give it back again. -/
theorem past_of_step {event : CallEvent ι} (step : s.step calls event = some s')
    (past : s.stage calls j = .past) : event ≠ .leave j ∧ s'.stage calls j = .past := by
  have leaves : event ≠ .leave j := by
    rintro rfl
    exact Stage.noConfusion (past.symm.trans (leave_cases step).1)
  refine ⟨leaves, ?_⟩
  by_cases enters : ∃ i, event = .enter i
  · obtain ⟨i, rfl⟩ := enters
    obtain ⟨-, waiting, -, stage_eq⟩ := enter_cases step
    have ne : j ≠ i := by
      rintro rfl
      exact Stage.noConfusion (past.symm.trans waiting)
    rw [stage_eq, Function.update_of_ne ne, past]
  by_cases left : ∃ i, event = .leave i
  · obtain ⟨i, rfl⟩ := left
    have ne : j ≠ i := fun eq => leaves (by rw [eq])
    rw [(leave_cases step).2.2, Function.update_of_ne ne, past]
  · rw [not_exists] at enters left
    rw [(stays_cases step enters left).2, past]

theorem past_of_run (h : s.run calls schedule = some s') (past : s.stage calls j = .past) :
    .leave j ∉ schedule ∧ s'.stage calls j = .past := by
  refine run_collects (P := fun schedule m => .leave j ∉ schedule ∧ m.stage calls j = .past)
    ⟨List.not_mem_nil, past⟩ ?_ h
  intro before event m m' ⟨unlisted, still⟩ step
  obtain ⟨leaves, after⟩ := past_of_step step still
  exact ⟨by simp [unlisted, Ne.symm leaves], after⟩

/-! ## What loads have come to -/

/-- Only the end of a load shows in what loads have come to. -/
theorem result_of_step {β : Type} (f : LoadPhase → β)
    (unfinished : ∀ phase, phase.stage ≠ .past → f phase = f .asked) {event : CallEvent ι}
    (step : s.step calls event = some s') (leaves : event ≠ .leave j) :
    f (s'.shared.phase j) = f (s.shared.phase j) := by
  have same {i : ι} {now next : LoadPhase} (phase : s.shared.phase i = now)
      (now_stage : now.stage ≠ .past) (next_stage : next.stage ≠ .past) :
      f (Function.update s.shared.phase i next j) = f (s.shared.phase j) :=
    SharedSession.apply_update f next phase
      ((unfinished next next_stage).trans (unfinished now now_stage).symm) j
  cases event with
  | takeTicket i =>
      obtain ⟨-, shared, taken, rfl⟩ := step_takeTicket_eq_some.1 step
      obtain ⟨asked, -, rfl⟩ := SharedSession.step_takeTicket_eq_some.1 taken
      exact same asked nofun nofun
  | enter i =>
      obtain ⟨-, ⟨-, shared, entered, rfl⟩ | ⟨-, -, -, rfl⟩⟩ := step_enter_eq_some.1 step
      · obtain ⟨ticket, waiting, -, rfl⟩ := SharedSession.step_enter_eq_some.1 entered
        exact same waiting nofun nofun
      · rfl
  | act i =>
      obtain ⟨-, -, rfl⟩ := step_act_eq_some.1 step
      rfl
  | answer i =>
      obtain ⟨-, shared, answered, rfl⟩ := step_answer_eq_some.1 step
      obtain ⟨ticket, vacated, rfl⟩ := SharedSession.step_answer_eq_some.1 answered
      exact same vacated nofun nofun
  | leave i =>
      have ne : j ≠ i := fun eq => leaves (by rw [eq])
      obtain ⟨-, shared, left, rfl⟩ | ⟨-, -, -, rfl⟩ := step_leave_eq_some.1 step
      · obtain ⟨ticket, reply, -, rfl⟩ := SharedSession.step_leave_eq_some.1 left
        simp [ne]
      · rfl
  | store i =>
      obtain ⟨-, -, -, -, -, -, rfl⟩ := step_store_eq_some.1 step
      rfl
  | name i =>
      obtain ⟨-, -, -, rfl⟩ | ⟨-, -, -, -, -, rfl⟩ := step_name_eq_some.1 step <;> rfl

/-- What a load has come to that is past the lock stays so. -/
theorem result_of_run {β : Type} (f : LoadPhase → β)
    (unfinished : ∀ phase, phase.stage ≠ .past → f phase = f .asked)
    (h : s.run calls schedule = some s') (past : s.stage calls j = .past) :
    f (s'.shared.phase j) = f (s.shared.phase j) := by
  have kept := run_collects (P := fun schedule m => .leave j ∉ schedule →
    f (m.shared.phase j) = f (s.shared.phase j)) (fun _ => rfl) ?_ h
  · exact kept (past_of_run h past).1
  · intro before event m m' same step unlisted
    rw [List.mem_append, not_or, List.mem_singleton] at unlisted
    exact (result_of_step f unfinished step (Ne.symm unlisted.2)).trans (same unlisted.1)

/-! ## What calls have seen -/

/-- Only by looking at the drawing does a call see it. -/
theorem seen_of_step {event : CallEvent ι} (step : s.step calls event = some s')
    (acts : event ≠ .act j) : (s'.phase j).seen? = (s.phase j).seen? := by
  obtain same | ⟨now, next, phase, phase', turn⟩ := turn_of_step step j
  · rw [same]
  · rw [phase, phase']
    cases turn with
    | act => exact absurd rfl acts
    | leave seen => exact (calls j).seen?_afterwards seen
    | store _ _ => exact CallPhase.seen?_afterStore _ _
    | enter | forget _ | name _ => rfl

/-- A call that looks at the drawing has the lock. -/
theorem inside_of_act (step : s.step calls (.act j) = some s') : s.stage calls j = .inside := by
  obtain ⟨notLoad, inside, -⟩ := step_act_eq_some.1 step
  rw [stage_of_notLoad notLoad, inside]
  rfl

/-- A call looks at the drawing only once. -/
theorem seen_of_act (step : s.step calls (.act j) = some s') :
    (s.phase j).seen? = none ∧ (s'.phase j).seen? = some s.drawing := by
  obtain ⟨-, inside, rfl⟩ := step_act_eq_some.1 step
  simp [inside, proceed, CallPhase.seen?]

theorem seen_of_run (h : s.run calls schedule = some s') (seen : (s.phase j).seen? = some t) :
    (s'.phase j).seen? = some t := by
  refine run_collects (P := fun _ m => (m.phase j).seen? = some t) seen ?_ h
  intro _ event m m' still step
  have acts : event ≠ .act j := by
    rintro rfl
    cases still.symm.trans (seen_of_act step).1
  rw [seen_of_step step acts, still]

/-- A call has seen the drawing just if the schedule says that it has looked. -/
theorem act_mem_iff {session : Session} {store : σ}
    (h : (atRest session store).run calls schedule = some s) :
    .act j ∈ schedule ↔ (s.phase j).seen?.isSome = true := by
  refine run_collects (P := fun schedule m => .act j ∈ schedule ↔ (m.phase j).seen?.isSome = true)
    (by simp [atRest, CallPhase.seen?]) ?_ h
  intro before event m m' same step
  by_cases acts : event = .act j
  · subst acts
    simp [(seen_of_act step).2]
  · rw [seen_of_step step acts, ← same, List.mem_append, List.mem_singleton]
    simp [Ne.symm acts]

/-! ## Events that come late -/

/-- Only a clear or a save that has given the lock back asks the store or names the session. -/
theorem past_of_late {event : CallEvent ι} (late : event = .store j ∨ event = .name j)
    (step : s.step calls event = some s') :
    s.stage calls j = .past ∧ (calls j).goesOn = true := by
  rcases late with rfl | rfl
  · obtain ⟨_, _, _, call, copied, _, _⟩ := step_store_eq_some.1 step
    exact ⟨by simp [stage, call, copied, SessionCall.isLoad, CallPhase.stage], by rw [call]; rfl⟩
  · obtain ⟨_, call, emptied, _⟩ | ⟨_, _, _, call, stored, _⟩ := step_name_eq_some.1 step
    · exact ⟨by simp [stage, call, emptied, SessionCall.isLoad, CallPhase.stage], by rw [call]; rfl⟩
    · exact ⟨by simp [stage, call, stored, SessionCall.isLoad, CallPhase.stage], by rw [call]; rfl⟩

theorem past_of_mem (h : s.run calls schedule = some s')
    (late : .store j ∈ schedule ∨ .name j ∈ schedule) :
    s'.stage calls j = .past ∧ (calls j).goesOn = true := by
  refine run_collects (P := fun schedule m => .store j ∈ schedule ∨ .name j ∈ schedule →
    m.stage calls j = .past ∧ (calls j).goesOn = true) (by simp) ?_ h late
  intro before event m m' same step late
  have past : m.stage calls j = .past ∧ (calls j).goesOn = true := by
    simp only [List.mem_append, List.mem_singleton] at late
    by_cases now : event = .store j ∨ event = .name j
    · exact past_of_late now step
    · exact same (by grind)
  exact ⟨(past_of_step step past.1).2, past.2⟩

/-- A call that acts has got the lock before. -/
theorem enter_mem_of_act {session : Session} {store : σ}
    (h : (atRest session store).run calls schedule = some s) (notLoad : (calls j).isLoad = false)
    (acts : .act j ∈ schedule) : .enter j ∈ schedule := by
  rw [(orderly_of_run h).entered_iff, stage_of_notLoad notLoad]
  exact CallPhase.stage_ne_of_seen? ((act_mem_iff h).1 acts)

/-- A call that goes on behind the lock has looked at the drawing before. -/
theorem act_mem_of_late {session : Session} {store : σ}
    (h : (atRest session store).run calls schedule = some s)
    (late : .store j ∈ schedule ∨ .name j ∈ schedule) : .act j ∈ schedule := by
  obtain ⟨past, goesOn⟩ := past_of_mem h late
  rw [stage_of_notLoad (SessionCall.isLoad_of_goesOn goesOn)] at past
  exact (act_mem_iff h).2 (CallPhase.seen?_of_stage past)

/-- When a writer gets the lock, all that have had it before have given it back, and do not do so
again. -/
theorem leave_before_enter {session : Session} {store : σ} {before after : List (CallEvent ι)}
    (h : (atRest session store).run calls (before ++ .enter i :: after) = some s)
    (writes : (calls i).writes = true) (entered : .enter j ∈ before) :
    .leave j ∈ before ∧ .leave j ∉ after := by
  obtain ⟨m, m', first, enter, last⟩ := run_append_cons_eq_some.1 h
  have orderly := orderly_of_run first
  have past := orderly.past_of_enter enter writes entered
  exact ⟨(orderly.left_iff j).2 past, (past_of_run last (past_of_step enter past).2).1⟩

end BusySession

end CloudCanvas
