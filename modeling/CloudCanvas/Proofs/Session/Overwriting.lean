import CloudCanvas.Proofs.Session.Sections

/-!
# Saves under one name

A save looks at the drawing while it shares the lock, and asks the store when it has given the
lock back.  So saves need not come to the store in the order in which they have looked, and the
store keeps the text of the one that came last.

## Main definitions

* `BusySession.text?`: the text of what a call has seen.
* `BusySession.storer?`: the save under a name that asks the store in an event.

The main statements are `BusySession.get?_of_run`, which says whose text is under a name, and
`BusySession.get?_eq_text_iff`, which says when that is the text of the last save to look.
-/

namespace CloudCanvas

variable {ι α : Type}

/-- The name that a save asks for. -/
def SessionCall.saveName? : SessionCall α → Option String
  | save name => some name
  | edit _ | read _ | clear | load _ => none

theorem SessionCall.saveName?_eq_some_iff {call : SessionCall α} {name : String} :
    call.saveName? = some name ↔ call = .save name := by
  cases call <;> simp [saveName?]

namespace BusySession

/-- The text of what a call has seen, if there is anything to save. -/
def text? {σ : Type} (s : BusySession ι α σ) (i : ι) : Option String :=
  (s.phase i).seen?.bind fun seen => seen.archive?.map Archive.text

/-- The save under a name that asks the store in an event. -/
def storer? (calls : ι → SessionCall α) (name : String) : CallEvent ι → Option ι
  | .store i => if (calls i).saveName? = some name then some i else none
  | .takeTicket _ | .enter _ | .act _ | .answer _ | .leave _ | .name _ => none

/-- The save under a name that asked the store last. -/
def lastStorer (calls : ι → SessionCall α) (name : String) (schedule : List (CallEvent ι)) :
    Option ι :=
  CallEvent.lastOf (storer? calls name) schedule

theorem storer?_eq_some_iff {calls : ι → SessionCall α} {name : String} {event : CallEvent ι}
    {i : ι} : storer? calls name event = some i ↔ event = .store i ∧ calls i = .save name := by
  rw [← SessionCall.saveName?_eq_some_iff]
  cases event with
  | store k =>
      by_cases same : k = i <;> simp [storer?, same]
  | takeTicket _ | enter _ | act _ | answer _ | leave _ | name _ => simp [storer?]

variable [DecidableEq ι] {calls : ι → SessionCall α} {schedule : List (CallEvent ι)}
  {s s' : BusySession ι α MemoryStore} {i j : ι} {name : String}

/-! ## Whose text is under a name -/

/-- A call that is past the lock keeps the text of what it has seen. -/
theorem text?_of_step {event : CallEvent ι} (step : s.step calls event = some s')
    (past : s.stage calls j = .past) : s'.text? j = s.text? j := by
  have acts : event ≠ .act j := by
    rintro rfl
    exact Stage.noConfusion (past.symm.trans (inside_of_act step))
  rw [text?, text?, seen_of_step step acts]

/-- What an event makes of the text under a name: the save that asks the store in it leaves its
own. -/
theorem get?_of_step (valid : isValidName name = true) {event : CallEvent ι}
    (step : s.step calls event = some s') :
    s'.store.designs.get? name =
      (storer? calls name event).elim (s.store.designs.get? name) s'.text? := by
  cases event with
  | takeTicket i =>
      obtain ⟨_, _, _, rfl⟩ := step_takeTicket_eq_some.1 step
      rfl
  | enter i =>
      obtain ⟨_, ⟨_, _, _, rfl⟩ | ⟨_, _, _, rfl⟩⟩ := step_enter_eq_some.1 step <;> rfl
  | act i =>
      obtain ⟨_, _, rfl⟩ := step_act_eq_some.1 step
      rfl
  | answer i =>
      obtain ⟨_, _, _, rfl⟩ := step_answer_eq_some.1 step
      rfl
  | leave i =>
      obtain ⟨_, _, _, rfl⟩ | ⟨_, _, _, rfl⟩ := step_leave_eq_some.1 step <;> rfl
  | name i =>
      obtain ⟨_, _, _, rfl⟩ | ⟨_, _, _, _, _, rfl⟩ := step_name_eq_some.1 step <;> rfl
  | store i =>
      obtain ⟨other, seen, archive, call, _, written, rfl⟩ := step_store_eq_some.1 step
      by_cases same : other = name
      · subst same
        have taken : isSuccess (s.store.save other archive.text).1 = true := by
          rw [MemoryStore.save, if_pos valid]
          split <;> rfl
        have kept : (DesignStore.save s.store other archive.text).2.designs.get? other =
            some archive.text := MemoryStore.get?_save_self taken
        simpa [storer?, call, SessionCall.saveName?, text?, proceed, CallPhase.seen?_afterStore,
          written] using kept
      · have kept : (DesignStore.save s.store other archive.text).2.designs.get? name =
            s.store.designs.get? name := MemoryStore.get?_save_of_ne (Ne.symm same)
        simpa [storer?, call, SessionCall.saveName?, same] using kept

/-- **Under a name there is the text of the save that asked the store last.** -/
theorem get?_of_run (valid : isValidName name = true) (h : s.run calls schedule = some s') :
    s'.store.designs.get? name =
      (lastStorer calls name schedule).elim (s.store.designs.get? name) s'.text? := by
  have kept := run_collects (P := fun schedule m =>
    (∀ j, .store j ∈ schedule → m.stage calls j = .past) ∧
      m.store.designs.get? name =
        (lastStorer calls name schedule).elim (s.store.designs.get? name) m.text?) ?_ ?_ h
  · exact kept.2
  · simp [lastStorer, CallEvent.lastOf]
  · rintro before event m m' ⟨past, stored⟩ step
    refine ⟨fun j mem => ?_, ?_⟩
    · rw [List.mem_append, List.mem_singleton] at mem
      rcases mem with mem | rfl
      · exact (past_of_step step (past j mem)).2
      · exact (past_of_step step (past_of_late (.inl rfl) step).1).2
    · rw [get?_of_step valid step, stored, lastStorer, lastStorer, CallEvent.lastOf_append,
        ← lastStorer]
      cases storer? calls name event with
      | some j => rfl
      | none =>
          cases last : lastStorer calls name before with
          | none => rfl
          | some j =>
              obtain ⟨earlier, mem, picked⟩ := CallEvent.exists_of_lastOf last
              obtain ⟨rfl, -⟩ := storer?_eq_some_iff.1 picked
              exact (text?_of_step step (past j mem)).symm

/-! ## The last save to look -/

/-- The store has been asked for a save that has come through, and has taken its name. -/
theorem store_mem_of_saved {session : Session} {store : MemoryStore}
    (h : (atRest session store).run calls schedule = some s) (call : calls i = .save name)
    (saved : (s.phase i).HasStored) : .store i ∈ schedule ∧ isValidName name = true := by
  obtain ⟨event, mem, m, before, after, turn, unsaved, hasStored⟩ :=
    exists_turn (P := CallPhase.HasStored) id h saved
  cases turn with
  | enter | act | forget _ => exact hasStored.elim
  | leave _ =>
      rw [call, SessionCall.afterwards] at hasStored
      split at hasStored <;> exact hasStored.elim
  | name _ => exact absurd trivial unsaved
  | @store other seen archive save _ =>
      obtain rfl := SessionCall.save.inj (call.symm.trans save)
      refine ⟨mem, ?_⟩
      by_contra invalid
      have refused : (DesignStore.save m.store name archive.text).1 = .ok Status.badRequest := by
        simp [DesignStore.save, MemoryStore.save, invalid]
      rw [refused] at hasStored
      exact hasStored.elim

/-- What a save has sent to the store it has the text of. -/
theorem isSome_text?_of_store (h : s.run calls schedule = some s') (mem : .store j ∈ schedule) :
    (s'.text? j).isSome = true := by
  have kept := run_collects (P := fun schedule m => .store j ∈ schedule →
    m.stage calls j = .past ∧ (m.text? j).isSome = true) (by simp) ?_ h
  · exact (kept mem).2
  · intro before event m m' same step mem
    rw [List.mem_append, List.mem_singleton] at mem
    rcases mem with mem | rfl
    · obtain ⟨past, sent⟩ := same mem
      exact ⟨(past_of_step step past).2, (text?_of_step step past).symm ▸ sent⟩
    · refine ⟨(past_of_step step (past_of_late (.inl rfl) step).1).2, ?_⟩
      obtain ⟨_, seen, archive, _, _, written, rfl⟩ := step_store_eq_some.1 step
      simp [text?, proceed, CallPhase.seen?_afterStore, written]

/-- **Whose text is under a name in the end.**  A save has come through and was the last under its
name to look at the drawing.  Under the name there is what it has seen, unless another save has
come to the store behind it, with what it had seen before.  In that case the text is right just if
the two texts are the same. -/
theorem get?_eq_text_iff {session : Session} {store : MemoryStore}
    {before after : List (CallEvent ι)} {status : ℕ}
    (h : (atRest session store).run calls (before ++ .act i :: after) = some s)
    (call : calls i = .save name)
    (saved : s.outcome? calls i = some (.saved (.ok (.saved status))))
    (lastLook : ∀ j, calls j = .save name → .act j ∉ after) :
    ∃ j text, lastStorer calls name after = some j ∧
      (j = i ∨ calls j = .save name ∧ .act j ∈ before) ∧
      s.text? j = some text ∧ s.store.designs.get? name = some text ∧
      (s.store.designs.get? name = s.text? i ↔ s.text? j = s.text? i) := by
  obtain ⟨m, m', first, act, last⟩ := run_append_cons_eq_some.1 h
  have hasStored : (s.phase i).HasStored := by
    rw [outcome?, call] at saved
    cases phase : s.phase i <;> simp_all [SessionCall.isLoad, CallPhase.HasStored]
  obtain ⟨mem, valid⟩ := store_mem_of_saved h call hasStored
  have later : .store i ∈ after := by
    have early : .store i ∉ before := by
      intro early
      exact Stage.noConfusion ((past_of_mem first (.inl early)).1.symm.trans (inside_of_act act))
    simpa [early] using mem
  obtain ⟨j, lastStorer_eq⟩ := Option.ne_none_iff_exists'.1
    (CallEvent.lastOf_ne_none later (storer?_eq_some_iff.2 ⟨rfl, call⟩))
  obtain ⟨event, listed, picked⟩ := CallEvent.exists_of_lastOf lastStorer_eq
  obtain ⟨rfl, save⟩ := storer?_eq_some_iff.1 picked
  have kept : s.store.designs.get? name = s.text? j := by
    rw [get?_of_run valid last, lastStorer, lastStorer_eq]
    rfl
  obtain ⟨text, text_eq⟩ := Option.isSome_iff_exists.1 (isSome_text?_of_store last listed)
  refine ⟨j, text, lastStorer_eq, ?_, text_eq, kept.trans text_eq, by rw [kept]⟩
  by_cases own : j = i
  · exact .inl own
  · have acts := act_mem_of_late h (.inl (List.mem_append_right _ (List.mem_cons_of_mem _ listed)))
    exact .inr ⟨save, by simpa [own, lastLook j save] using acts⟩

/-! ## An edit between two saves -/

/-- A session with one node. -/
def oneNode : Session :=
  ⟨⟨[⟨"first", "public-ip", ∅, none, none⟩], [], []⟩, none, 0⟩

/-- Two saves, and an edit between them. -/
def savedTwice : Fin 3 → SessionCall ℕ
  | 0 | 2 => .save "edge"
  | 1 => addition "second"

/-- The first save has looked at the drawing, and has not come to the store when the second one
gets the lock. -/
def firstLook : List (CallEvent (Fin 3)) :=
  [.enter 0, .act 0, .leave 0, .enter 1, .act 1, .leave 1, .enter 2]

/-- The saves come to the store in the order in which they have looked. -/
theorem second_save_kept :
    ∃ s, (atRest oneNode MemoryStore.empty).run savedTwice
        (firstLook ++ .act 2 :: [.store 0, .name 0, .leave 2, .store 2, .name 2]) = some s ∧
      s.store.designs.get? "edge" = s.text? 2 := by
  obtain ⟨s, run, saved⟩ : ∃ s, (atRest oneNode MemoryStore.empty).run savedTwice
      (firstLook ++ .act 2 :: [.store 0, .name 0, .leave 2, .store 2, .name 2]) = some s ∧
        s.outcome? savedTwice 2 = some (.saved (.ok (.saved 200))) :=
    exists_run_of_any (by decide +kernel)
  obtain ⟨j, text, last, -, -, -, text_iff⟩ :=
    get?_eq_text_iff run rfl saved fun j _ => by simp
  obtain rfl : (2 : Fin 3) = j := Option.some.inj last
  exact ⟨s, run, text_iff.2 rfl⟩

/-- The second save overtakes the first on the way to the store.  Both come through, and the store
has the drawing without the edit. -/
theorem second_save_lost :
    ∃ s, (atRest oneNode MemoryStore.empty).run savedTwice
        (firstLook ++ .act 2 :: [.leave 2, .store 2, .store 0, .name 2, .name 0]) = some s ∧
      (∀ i, s.IsAtRest savedTwice i) ∧
      s.outcome? savedTwice 2 = some (.saved (.ok (.saved 201))) ∧
      s.outcome? savedTwice 0 = some (.saved (.ok (.saved 200))) ∧
      s.store.designs.get? "edge" = s.text? 0 ∧ s.text? 0 ≠ s.text? 2 :=
  exists_run_of_any (by decide +kernel)

end BusySession

end CloudCanvas
