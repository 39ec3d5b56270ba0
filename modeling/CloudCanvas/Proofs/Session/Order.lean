import CloudCanvas.Proofs.Session.Calls

/-!
# The order in which calls get the lock

A schedule tells who has got the lock of the drawing and in which order, and who has given it
back.  The lock tells the same.

## Main definitions

* `CallEvent.writers`: the calls that had the lock to themselves, in that order.
* `BusySession.Orderly`: the lock and the schedule agree.

The main statement is `BusySession.orderly_of_run`.
-/

namespace CloudCanvas

variable {ι α σ : Type}

/-! ## The order of the lock -/

namespace CallEvent

/-- The call that gets the lock in an event. -/
def entrant? : CallEvent ι → Option ι
  | enter i => some i
  | takeTicket _ | act _ | answer _ | leave _ | store _ | name _ => none

/-- The calls that had the lock to themselves, in the order in which they got it. -/
def writers (calls : ι → SessionCall α) (schedule : List (CallEvent ι)) : List ι :=
  (schedule.filterMap entrant?).filter fun i => (calls i).writes

theorem mem_entries_iff {schedule : List (CallEvent ι)} {i : ι} :
    i ∈ schedule.filterMap entrant? ↔ .enter i ∈ schedule := by
  rw [List.mem_filterMap]
  constructor
  · rintro ⟨event, mem, entry⟩
    cases event <;> simp [entrant?] at entry
    exact entry ▸ mem
  · intro mem
    exact ⟨_, mem, rfl⟩

theorem mem_writers_iff {calls : ι → SessionCall α} {schedule : List (CallEvent ι)} {i : ι} :
    i ∈ writers calls schedule ↔ .enter i ∈ schedule ∧ (calls i).writes = true := by
  rw [writers, List.mem_filter, mem_entries_iff]

theorem entrant?_eq_none {event : CallEvent ι} (enters : ∀ i, event ≠ .enter i) :
    event.entrant? = none := by
  cases event with
  | enter i => exact absurd rfl (enters i)
  | takeTicket _ | act _ | answer _ | leave _ | store _ | name _ => rfl

/-- Only getting the lock shows in the order. -/
theorem entries_append_of_ne {schedule : List (CallEvent ι)} {event : CallEvent ι}
    (enters : ∀ i, event ≠ .enter i) :
    (schedule ++ [event]).filterMap entrant? = schedule.filterMap entrant? := by
  simp [List.filterMap_append, entrant?_eq_none enters]

theorem writers_append_of_ne (calls : ι → SessionCall α) (schedule : List (CallEvent ι))
    (event : CallEvent ι) (enters : ∀ i, event ≠ .enter i) :
    writers calls (schedule ++ [event]) = writers calls schedule := by
  rw [writers, entries_append_of_ne enters, writers]

theorem writers_append_enter (calls : ι → SessionCall α) (schedule : List (CallEvent ι)) (i : ι) :
    writers calls (schedule ++ [.enter i]) =
      if (calls i).writes then writers calls schedule ++ [i] else writers calls schedule := by
  cases kind : (calls i).writes <;> simp [writers, entrant?, List.filter_append, kind]

/-- The call that `pick` finds in the last event in which it finds one. -/
def lastOf (pick : CallEvent ι → Option ι) (schedule : List (CallEvent ι)) : Option ι :=
  (schedule.filterMap pick).getLast?

theorem lastOf_append (pick : CallEvent ι → Option ι) (schedule : List (CallEvent ι))
    (event : CallEvent ι) :
    lastOf pick (schedule ++ [event]) = (pick event).or (lastOf pick schedule) := by
  cases picked : pick event <;> simp [lastOf, picked]

theorem lastOf_congr {pick pick' : CallEvent ι → Option ι} {schedule : List (CallEvent ι)}
    (same : ∀ event ∈ schedule, pick event = pick' event) :
    lastOf pick schedule = lastOf pick' schedule := by
  rw [lastOf, List.filterMap_congr same, lastOf]

theorem exists_of_lastOf {pick : CallEvent ι → Option ι} {schedule : List (CallEvent ι)} {i : ι}
    (last : lastOf pick schedule = some i) : ∃ event ∈ schedule, pick event = some i :=
  List.mem_filterMap.1 (List.mem_of_getLast? last)

theorem lastOf_ne_none {pick : CallEvent ι → Option ι} {schedule : List (CallEvent ι)}
    {event : CallEvent ι} {i : ι} (mem : event ∈ schedule) (picked : pick event = some i) :
    lastOf pick schedule ≠ none := by
  intro none_eq
  have empty := List.getLast?_eq_none_iff.1 none_eq
  exact List.not_mem_nil (empty ▸ List.mem_filterMap.2 ⟨event, mem, picked⟩)

end CallEvent

namespace BusySession

/-! ## Stages -/

section Stages

variable [DecidableEq ι] {calls : ι → SessionCall α} {s s' : BusySession ι α σ} {i : ι}

/-- A step of a load shows in its own stage only. -/
theorem stage_of_load (next : LoadPhase) (load : (calls i).isLoad = true)
    (loads : s'.shared.phase = Function.update s.shared.phase i next)
    (others : s'.phase = s.phase) :
    s'.stage calls = Function.update (s.stage calls) i next.stage := by
  funext j
  by_cases eq : j = i
  · subst eq
    simp [stage, load, loads]
  · simp [stage, loads, others, eq]

/-- A step of another call shows in its own stage only. -/
theorem stage_of_call (next : CallPhase α) (notLoad : (calls i).isLoad = false)
    (loads : s'.shared.phase = s.shared.phase)
    (others : s'.phase = Function.update s.phase i next) :
    s'.stage calls = Function.update (s.stage calls) i next.stage := by
  funext j
  by_cases eq : j = i
  · subst eq
    simp [stage, notLoad, others]
  · simp [stage, loads, others, eq]

theorem stage_of_load_same (next : LoadPhase) (load : (calls i).isLoad = true)
    (loads : s'.shared.phase = Function.update s.shared.phase i next)
    (others : s'.phase = s.phase) (same : next.stage = (s.shared.phase i).stage) :
    s'.stage calls = s.stage calls := by
  rw [stage_of_load next load loads others]
  exact Function.update_eq_self_iff.2 (by rw [same, stage, if_pos load])

theorem stage_of_call_same (next : CallPhase α) (notLoad : (calls i).isLoad = false)
    (loads : s'.shared.phase = s.shared.phase)
    (others : s'.phase = Function.update s.phase i next)
    (same : next.stage = (s.phase i).stage) : s'.stage calls = s.stage calls := by
  rw [stage_of_call next notLoad loads others]
  exact Function.update_eq_self_iff.2 (by rw [same, stage, notLoad]; rfl)

variable [DesignStore σ]

theorem enter_cases (h : s.step calls (.enter i) = some s') :
    s.lock.Admits (calls i).writes ∧ s.stage calls i = .waiting ∧
      s'.lock = s.lock.enter (calls i).writes i ∧
      s'.stage calls = Function.update (s.stage calls) i .inside := by
  obtain ⟨admits, ⟨load, shared, entered, rfl⟩ | ⟨notLoad, -, asked, rfl⟩⟩ :=
    step_enter_eq_some.1 h
  · obtain ⟨ticket, waiting, free, rfl⟩ := SharedSession.step_enter_eq_some.1 entered
    refine ⟨admits, by simp [stage, load, waiting, LoadPhase.stage], ?_, ?_⟩
    · simp [lock, Lock.enter, SessionCall.writes_of_isLoad load]
    · exact stage_of_load (.vacated ticket) load rfl rfl
  · refine ⟨admits, by simp [stage, notLoad, asked, CallPhase.stage], rfl, ?_⟩
    exact stage_of_call .inside notLoad rfl rfl

theorem leave_cases (h : s.step calls (.leave i) = some s') :
    s.stage calls i = .inside ∧ s'.lock = s.lock.leave (calls i).writes i ∧
      s'.stage calls = Function.update (s.stage calls) i .past := by
  obtain ⟨load, shared, left, rfl⟩ | ⟨notLoad, seen, acted, rfl⟩ := step_leave_eq_some.1 h
  · obtain ⟨ticket, reply, answered, rfl⟩ := SharedSession.step_leave_eq_some.1 left
    refine ⟨by simp [stage, load, answered, LoadPhase.stage], ?_, ?_⟩
    · simp [lock, Lock.leave, SessionCall.writes_of_isLoad load]
    · exact stage_of_load (.finished ticket reply _) load rfl rfl
  · refine ⟨by simp [stage, notLoad, acted, CallPhase.stage], rfl, ?_⟩
    rw [← SessionCall.stage_afterwards (calls i) seen]
    exact stage_of_call _ notLoad rfl rfl

/-- Getting the lock and giving it back apart, no event has to do with the lock. -/
theorem stays_cases {event : CallEvent ι} (h : s.step calls event = some s')
    (enters : ∀ i, event ≠ .enter i) (leaves : ∀ i, event ≠ .leave i) :
    s'.lock = s.lock ∧ s'.stage calls = s.stage calls := by
  cases event with
  | enter i => exact absurd rfl (enters i)
  | leave i => exact absurd rfl (leaves i)
  | takeTicket i =>
      obtain ⟨load, shared, taken, rfl⟩ := step_takeTicket_eq_some.1 h
      obtain ⟨asked, -, rfl⟩ := SharedSession.step_takeTicket_eq_some.1 taken
      exact ⟨rfl, stage_of_load_same (.ticketed _) load rfl rfl (by rw [asked]; rfl)⟩
  | act i =>
      obtain ⟨notLoad, inside, rfl⟩ := step_act_eq_some.1 h
      exact ⟨rfl, stage_of_call_same (.acted _) notLoad rfl rfl (by rw [inside]; rfl)⟩
  | answer i =>
      obtain ⟨load, shared, answered, rfl⟩ := step_answer_eq_some.1 h
      obtain ⟨ticket, vacated, rfl⟩ := SharedSession.step_answer_eq_some.1 answered
      exact ⟨rfl, stage_of_load_same (.answered ticket _) load rfl rfl (by rw [vacated]; rfl)⟩
  | store i =>
      obtain ⟨name, seen, archive, call, copied, -, rfl⟩ := step_store_eq_some.1 h
      refine ⟨rfl, stage_of_call_same (.afterStore seen _) (by rw [call]; rfl) rfl rfl ?_⟩
      rw [CallPhase.stage_afterStore, copied]
      rfl
  | name i =>
      obtain ⟨seen, call, emptied, rfl⟩ | ⟨name, seen, status, call, stored, rfl⟩ :=
        step_name_eq_some.1 h
      · exact ⟨rfl, stage_of_call_same (.finished seen _) (by rw [call]; rfl) rfl rfl
          (by rw [emptied]; rfl)⟩
      · exact ⟨rfl, stage_of_call_same (.finished seen _) (by rw [call]; rfl) rfl rfl
          (by rw [stored]; rfl)⟩

end Stages

/-! ## Who has had the lock -/

section Order

variable [DecidableEq ι] {calls : ι → SessionCall α} {schedule : List (CallEvent ι)}
  {s s' : BusySession ι α σ} {i : ι}

/-- The lock and the schedule tell the same story. -/
structure Orderly (calls : ι → SessionCall α) (schedule : List (CallEvent ι))
    (s : BusySession ι α σ) : Prop where
  guards : s.lock.Guards (fun i => (calls i).writes) (s.stage calls)
  entered_iff : ∀ i, .enter i ∈ schedule ↔ s.stage calls i ≠ .waiting
  left_iff : ∀ i, .leave i ∈ schedule ↔ s.stage calls i = .past
  nodup : (schedule.filterMap CallEvent.entrant?).Nodup

omit [DecidableEq ι] in
theorem orderly_atRest (session : Session) (store : σ) :
    (atRest session store).Orderly calls [] := by
  have waiting : ∀ i, (atRest session store : BusySession ι α σ).stage calls i = .waiting := by
    intro i
    simp [stage, atRest, SharedSession.atRest, LoadPhase.stage, CallPhase.stage]
  have free : (atRest session store : BusySession ι α σ).lock = ⟨none, ∅⟩ := rfl
  exact {
    guards := ⟨by simp [waiting, free], by simp [waiting, free], by simp [free]⟩
    entered_iff := by simp [waiting]
    left_iff := by simp [waiting]
    nodup := by simp }

variable [DesignStore σ]

namespace Orderly

omit [DesignStore σ] [DecidableEq ι] in
theorem nodup_writers (h : s.Orderly calls schedule) :
    (CallEvent.writers calls schedule).Nodup :=
  h.nodup.filter _

theorem enter (h : s.Orderly calls schedule) (step : s.step calls (.enter i) = some s') :
    s'.Orderly calls (schedule ++ [.enter i]) := by
  obtain ⟨admits, waiting, lock_eq, stage_eq⟩ := enter_cases step
  have new : i ∉ schedule.filterMap CallEvent.entrant? := by
    rw [CallEvent.mem_entries_iff, h.entered_iff, not_not]
    exact waiting
  refine ⟨?_, fun j => ?_, fun j => ?_, ?_⟩
  · rw [lock_eq, stage_eq]
    exact h.guards.enter admits waiting
  · by_cases eq : j = i <;> simp [stage_eq, h.entered_iff, eq]
  · by_cases eq : j = i <;> simp [stage_eq, h.left_iff, eq, waiting]
  · rw [List.filterMap_append, List.nodup_append]
    refine ⟨h.nodup, by simp [CallEvent.entrant?], ?_⟩
    intro a mem b single
    obtain rfl : b = i := by simpa [CallEvent.entrant?] using single
    exact ne_of_mem_of_not_mem mem new

theorem leave (h : s.Orderly calls schedule) (step : s.step calls (.leave i) = some s') :
    s'.Orderly calls (schedule ++ [.leave i]) := by
  obtain ⟨inside, lock_eq, stage_eq⟩ := leave_cases step
  refine ⟨?_, fun j => ?_, fun j => ?_, ?_⟩
  · rw [lock_eq, stage_eq]
    exact h.guards.leave inside
  · by_cases eq : j = i <;> simp [stage_eq, h.entered_iff, eq, inside]
  · by_cases eq : j = i <;> simp [stage_eq, h.left_iff, eq]
  · rw [CallEvent.entries_append_of_ne (by simp)]
    exact h.nodup

/-- An event keeps the story straight. -/
theorem step {event : CallEvent ι} (h : s.Orderly calls schedule)
    (step : s.step calls event = some s') : s'.Orderly calls (schedule ++ [event]) := by
  by_cases enters : ∃ i, event = .enter i
  · obtain ⟨i, rfl⟩ := enters
    exact h.enter step
  by_cases leaves : ∃ i, event = .leave i
  · obtain ⟨i, rfl⟩ := leaves
    exact h.leave step
  rw [not_exists] at enters leaves
  obtain ⟨lock_eq, stage_eq⟩ := stays_cases step enters leaves
  refine ⟨?_, fun j => ?_, fun j => ?_, ?_⟩
  · rw [lock_eq, stage_eq]
    exact h.guards
  · simp [stage_eq, h.entered_iff, Ne.symm (enters j)]
  · simp [stage_eq, h.left_iff, Ne.symm (leaves j)]
  · rw [CallEvent.entries_append_of_ne enters]
    exact h.nodup

/-- When a writer gets the lock, all that have had it before are past it. -/
theorem past_of_enter (h : s.Orderly calls schedule) (step : s.step calls (.enter i) = some s')
    (writes : (calls i).writes = true) {j : ι} (entered : .enter j ∈ schedule) :
    s.stage calls j = .past := by
  obtain ⟨⟨free, unshared⟩, -⟩ := enter_cases step
  rw [h.entered_iff] at entered
  cases stage_eq : s.stage calls j with
  | waiting => exact absurd stage_eq entered
  | past => rfl
  | inside =>
      cases kind : (calls j).writes with
      | true =>
          have held := (h.guards.writer_iff j).2 ⟨kind, stage_eq⟩
          cases free.symm.trans held
      | false =>
          have shares := (h.guards.mem_readers_iff j).2 ⟨kind, stage_eq⟩
          simp [unshared writes] at shares

end Orderly

theorem orderly_of_run {session : Session} {store : σ}
    (h : (atRest session store).run calls schedule = some s) : s.Orderly calls schedule :=
  run_collects (orderly_atRest session store) (fun _ _ _ _ before step => before.step step) h

end Order

end BusySession

end CloudCanvas
