import CloudCanvas.Proofs.Session.History
import Mathlib.Data.List.Induction
import Mathlib.Logic.Function.Basic

/-!
# Loads at the same time

Any number of loads work on one session.  Each of them takes a ticket, waits for the
lock of the drawing, empties the session, gets its answer from the store, and ends.
Taking a ticket and getting the lock are two steps, so the loads need not get the lock
in the order of their tickets.

## Main definitions

* `LoadPhase`, `LoadEvent`, `SharedSession`: loads under way, and what they do.
* `SharedSession.step`, `SharedSession.run`: schedules of events.
* `LoadEvent.lastEntry`: the load that got the lock last.
* `Session.Shows`: a session that holds what a load has installed.
* `SharedSession.Consistent`: what every schedule keeps.

The main statement is `SharedSession.consistent_of_run`.
-/

namespace CloudCanvas

/-- How far a load has got. -/
inductive LoadPhase where
  | asked
  | ticketed (ticket : ℕ)
  /-- The load has the lock, and waits for the store. -/
  | vacated (ticket : ℕ)
  | answered (ticket : ℕ) (reply : StoreReply)
  | finished (ticket : ℕ) (reply : StoreReply) (result : Except SessionError LoadOutcome)

/-- What a load does next. -/
inductive LoadEvent (ι : Type) where
  | takeTicket (load : ι)
  /-- Get the lock, and empty the session. -/
  | enter (load : ι)
  | answer (load : ι) (reply : StoreReply)
  /-- Settle the load, and give the lock back. -/
  | leave (load : ι)

/-- A session that several loads work on. -/
structure SharedSession (ι : Type) where
  session : Session
  /-- The load that has the lock. -/
  holder : Option ι
  phase : ι → LoadPhase

namespace LoadPhase

/-- The ticket of a load that has one. -/
def ticket? : LoadPhase → Option ℕ
  | .asked => none
  | .ticketed ticket | .vacated ticket | .answered ticket _ | .finished ticket _ _ => some ticket

/-- Whether a load is between getting the lock and giving it back. -/
def IsInside : LoadPhase → Prop
  | .vacated _ | .answered _ _ => True
  | .asked | .ticketed _ | .finished _ _ _ => False

/-- Whether a load has got the lock, now or before. -/
def HasEntered : LoadPhase → Prop
  | .vacated _ | .answered _ _ | .finished _ _ _ => True
  | .asked | .ticketed _ => False

/-- Whether a load has nothing under way. -/
def IsAtRest : LoadPhase → Prop
  | .asked | .finished _ _ _ => True
  | .ticketed _ | .vacated _ | .answered _ _ => False

end LoadPhase

namespace LoadEvent

variable {ι : Type}

/-- The load that gets the lock in an event. -/
def entry? : LoadEvent ι → Option ι
  | .enter i => some i
  | .takeTicket _ | .answer _ _ | .leave _ => none

/-- The load that got the lock last. -/
def lastEntry (schedule : List (LoadEvent ι)) : Option ι :=
  (schedule.filterMap entry?).getLast?

theorem lastEntry_append (schedule : List (LoadEvent ι)) (event : LoadEvent ι) :
    lastEntry (schedule ++ [event]) = event.entry?.or (lastEntry schedule) := by
  cases entry : event.entry? <;> simp [lastEntry, entry]

end LoadEvent

namespace SharedSession

variable {ι : Type} [DecidableEq ι]

/-- A session that no load works on. -/
def atRest (s : Session) : SharedSession ι :=
  ⟨s, none, fun _ => .asked⟩

/-- Go on with a load, if what it does next is possible.  A load of a blank name takes no
ticket. -/
def step (names : ι → String) (s : SharedSession ι) : LoadEvent ι → Option (SharedSession ι)
  | .takeTicket i =>
    match s.phase i with
    | .asked =>
      if isAllBlank (names i) then none
      else
        let (ticket, session) := s.session.takeTicket
        some { s with session, phase := Function.update s.phase i (.ticketed ticket) }
    | _ => none
  | .enter i =>
    match s.phase i, s.holder with
    | .ticketed ticket, none =>
      some ⟨s.session.vacate, some i, Function.update s.phase i (.vacated ticket)⟩
    | _, _ => none
  | .answer i reply =>
    match s.phase i with
    | .vacated ticket =>
      some { s with phase := Function.update s.phase i (.answered ticket reply) }
    | _ => none
  | .leave i =>
    match s.phase i with
    | .answered ticket reply =>
      let (result, session) := s.session.settle ticket (names i) reply
      some ⟨session, none, Function.update s.phase i (.finished ticket reply result)⟩
    | _ => none

/-- Go through a schedule. -/
def run (names : ι → String) (s : SharedSession ι) (schedule : List (LoadEvent ι)) :
    Option (SharedSession ι) :=
  schedule.foldlM (step names) s

end SharedSession

/-! ## What a load leaves -/

namespace Session

variable {s s' : Session} {ticket : ℕ} {name : String} {reply : StoreReply}

/-- The session holds nothing. -/
def IsVacant (s : Session) : Prop :=
  s.topology = ∅ ∧ s.name = none

/-- The session holds the design of a reply, under its name. -/
def Shows (s : Session) (name : String) (reply : StoreReply) : Prop :=
  ∃ status body archive, reply = .ok (status, body) ∧ readDesign body = .ok archive ∧
    archive.restore = .ok s.topology ∧ s.name = some name

theorem isVacant_vacate (s : Session) : s.vacate.IsVacant := ⟨rfl, rfl⟩

theorem IsVacant.not_shows (h : s.IsVacant) : ¬ s.Shows name reply := by
  intro shows
  obtain ⟨_, _, _, _, _, _, named⟩ := shows
  simp [h.2] at named

theorem tickets_install (s : Session) (name : String) (a : Archive) :
    (s.install name a).2.tickets = s.tickets := by
  rw [install]
  split <;> rfl

@[simp] theorem tickets_settle (s : Session) (ticket : ℕ) (name : String) (reply : StoreReply) :
    (s.settle ticket name reply).2.tickets = s.tickets := by
  rcases s.settle_cases ticket name reply with ⟨left, _⟩ | ⟨_, _, _, archive, _, _, _, installed⟩
  · rw [left]
  · rw [installed, tickets_install]

/-- A load whose ticket is not the newest changes nothing when it ends. -/
theorem settle_of_tickets_ne (ne : s.tickets ≠ ticket) :
    (s.settle ticket name reply).2 = s := by
  rcases s.settle_cases ticket name reply with ⟨left, _⟩ | ⟨newest, _⟩
  · exact left
  · exact absurd newest ne

/-- A load that reports a design has installed it. -/
theorem shows_of_settle_eq_loaded {summary : LoadSummary}
    (h : s.settle ticket name reply = (.ok (.loaded summary), s')) : s'.Shows name reply := by
  rcases s.settle_cases ticket name reply with
    ⟨_, unloaded⟩ | ⟨_, status, body, archive, given, _, read, installed⟩
  · exact absurd (congrArg Prod.fst h) (unloaded summary)
  · rw [installed, install, Topology.load] at h
    cases restored : archive.restore with
    | error e => simp [restored] at h
    | ok t =>
        simp only [restored, Prod.mk.injEq] at h
        obtain ⟨_, rfl⟩ := h
        exact ⟨status, body, archive, given, read, restored, rfl⟩

end Session

/-! ## What an event does -/

namespace SharedSession

variable {ι : Type} [DecidableEq ι] {names : ι → String} {s s' : SharedSession ι} {i j : ι}

theorem step_takeTicket_eq_some :
    s.step names (.takeTicket i) = some s' ↔
      s.phase i = .asked ∧ isAllBlank (names i) = false ∧
        ⟨⟨s.session.topology, s.session.name, s.session.tickets + 1⟩, s.holder,
          Function.update s.phase i (.ticketed (s.session.tickets + 1))⟩ = s' := by
  rw [step]
  cases phase : s.phase i <;> simp [Session.takeTicket]

theorem step_enter_eq_some :
    s.step names (.enter i) = some s' ↔
      ∃ ticket, s.phase i = .ticketed ticket ∧ s.holder = none ∧
        ⟨s.session.vacate, some i, Function.update s.phase i (.vacated ticket)⟩ = s' := by
  rw [step]
  cases phase : s.phase i <;> cases held : s.holder <;> simp

theorem step_answer_eq_some {reply : StoreReply} :
    s.step names (.answer i reply) = some s' ↔
      ∃ ticket, s.phase i = .vacated ticket ∧
        ⟨s.session, s.holder, Function.update s.phase i (.answered ticket reply)⟩ = s' := by
  rw [step]
  cases phase : s.phase i <;> simp

theorem step_leave_eq_some :
    s.step names (.leave i) = some s' ↔
      ∃ ticket reply, s.phase i = .answered ticket reply ∧
        ⟨(s.session.settle ticket (names i) reply).2, none, Function.update s.phase i
          (.finished ticket reply (s.session.settle ticket (names i) reply).1)⟩ = s' := by
  rw [step]
  cases phase : s.phase i <;> simp [and_assoc]

/-! ## Tickets -/

/-- No ticket is ahead of the session's count, and no two loads have the same one. -/
structure Ordered (s : SharedSession ι) : Prop where
  ticket_le : ∀ i ticket, (s.phase i).ticket? = some ticket → ticket ≤ s.session.tickets
  injective : ∀ i j ticket, (s.phase i).ticket? = some ticket →
    (s.phase j).ticket? = some ticket → i = j

/-- A change to the phase of one load that does not show in `f` shows for no load. -/
theorem apply_update {α : Type} (f : LoadPhase → α) {before : LoadPhase} (next : LoadPhase)
    (phase : s.phase i = before) (same : f next = f before) (j : ι) :
    f (Function.update s.phase i next j) = f (s.phase j) := by
  by_cases eq : j = i
  · rw [eq, Function.update_self, phase, same]
  · rw [Function.update_of_ne eq]

namespace Ordered

omit [DecidableEq ι] in
/-- Only taking a ticket matters to the tickets. -/
theorem of_ticket?_eq (h : s.Ordered) (tickets : s'.session.tickets = s.session.tickets)
    (same : ∀ j, (s'.phase j).ticket? = (s.phase j).ticket?) : s'.Ordered where
  ticket_le i ticket taken := by
    rw [same] at taken
    rw [tickets]
    exact h.ticket_le i ticket taken
  injective i j ticket first second := by
    rw [same] at first second
    exact h.injective i j ticket first second

/-- A new ticket is ahead of all others. -/
theorem takeTicket (h : s.Ordered) (step : s.step names (.takeTicket i) = some s') :
    s'.Ordered := by
  obtain ⟨-, -, rfl⟩ := step_takeTicket_eq_some.1 step
  have new : ∀ j ticket,
      (Function.update s.phase i (.ticketed (s.session.tickets + 1)) j).ticket? = some ticket →
        (j = i ∧ ticket = s.session.tickets + 1) ∨
          (ticket ≤ s.session.tickets ∧ (s.phase j).ticket? = some ticket) := by
    intro j ticket taken
    by_cases eq : j = i
    · subst eq
      simp only [Function.update_self, LoadPhase.ticket?, Option.some.injEq] at taken
      exact .inl ⟨rfl, taken.symm⟩
    · rw [Function.update_of_ne eq] at taken
      exact .inr ⟨h.ticket_le j ticket taken, taken⟩
  constructor
  · intro j ticket taken
    have := new j ticket taken
    simp only
    omega
  · intro j k ticket first second
    rcases new j ticket first with ⟨rfl, _⟩ | ⟨_, old⟩
    · rcases new k ticket second with ⟨rfl, _⟩ | ⟨_, _⟩
      · rfl
      · omega
    · rcases new k ticket second with ⟨rfl, _⟩ | ⟨_, other⟩
      · omega
      · exact h.injective j k ticket old other

end Ordered

/-! ## What a schedule keeps -/

/-- The load that got the lock last is one that got it, if there is any. -/
structure Entries (last : Option ι) (s : SharedSession ι) : Prop where
  hasEntered : ∀ i, last = some i → (s.phase i).HasEntered
  ne_none : ∀ i, (s.phase i).HasEntered → last ≠ none

omit [DecidableEq ι] in
/-- Only getting the lock matters to the entries. -/
theorem Entries.of_hasEntered_eq {last : Option ι} (h : s.Entries last)
    (same : ∀ j, (s'.phase j).HasEntered = (s.phase j).HasEntered) : s'.Entries last where
  hasEntered j isLast := by
    rw [same]
    exact h.hasEntered j isLast
  ne_none j hj := by
    rw [same] at hj
    exact h.ne_none j hj

/-- What holds of a session with loads under way, of which one got the lock last. -/
structure Consistent (names : ι → String) (last : Option ι) (s : SharedSession ι) : Prop where
  ordered : s.Ordered
  /-- The lock excludes: only its holder is inside. -/
  holder_iff : ∀ i, s.holder = some i ↔ (s.phase i).IsInside
  last_of_holder : ∀ i, s.holder = some i → last = some i
  vacant_of_holder : ∀ i, s.holder = some i → s.session.IsVacant
  entries : s.Entries last
  /-- What the last load has installed is there. -/
  shows : ∀ i ticket reply summary, last = some i →
    s.phase i = .finished ticket reply (.ok (.loaded summary)) →
      s.session.Shows (names i) reply
  /-- The last load has installed nothing if a newer one got the lock before it. -/
  vacant : ∀ i j ticket newer reply result, last = some i →
    s.phase i = .finished ticket reply result → (s.phase j).HasEntered →
      (s.phase j).ticket? = some newer → ticket < newer → s.session.IsVacant

omit [DecidableEq ι] in
theorem consistent_atRest (session : Session) : (atRest session).Consistent names none where
  ordered := ⟨by simp [atRest, LoadPhase.ticket?], by simp [atRest, LoadPhase.ticket?]⟩
  holder_iff := by simp [atRest, LoadPhase.IsInside]
  last_of_holder := by simp [atRest]
  vacant_of_holder := by simp [atRest]
  entries := ⟨by simp, by simp [atRest, LoadPhase.HasEntered]⟩
  shows := by simp
  vacant := by simp

namespace Consistent

variable {last : Option ι}

omit [DecidableEq ι] in
theorem of_isInside (h : s.Consistent names last) (inside : (s.phase i).IsInside) :
    s.holder = some i ∧ last = some i :=
  have holds := (h.holder_iff i).2 inside
  ⟨holds, h.last_of_holder i holds⟩

theorem takeTicket (h : s.Consistent names last)
    (step : s.step names (.takeTicket i) = some s') : s'.Consistent names last := by
  have ordered := h.ordered.takeTicket step
  obtain ⟨asked, -, rfl⟩ := step_takeTicket_eq_some.1 step
  let next : LoadPhase := .ticketed (s.session.tickets + 1)
  have inside := apply_update LoadPhase.IsInside next asked rfl
  have entered := apply_update LoadPhase.HasEntered next asked rfl
  -- the new phase is not that of a load that has entered
  have unchanged : ∀ j, (s.phase j).HasEntered → Function.update s.phase i next j = s.phase j := by
    intro j hj
    apply Function.update_of_ne
    intro eq
    subst eq
    simp [asked, LoadPhase.HasEntered] at hj
  refine ⟨ordered, ?_, h.last_of_holder, h.vacant_of_holder,
    h.entries.of_hasEntered_eq entered, ?_, ?_⟩
  · intro j
    rw [h.holder_iff, inside]
  · intro j ticket reply summary isLast finished
    have before := (unchanged j (h.entries.hasEntered j isLast)).symm.trans finished
    exact h.shows j ticket reply summary isLast before
  · intro j k ticket newer reply result isLast finished hk taken lt
    have before := (unchanged j (h.entries.hasEntered j isLast)).symm.trans finished
    rw [entered] at hk
    have number : (s.phase k).ticket? = some newer := by rwa [← unchanged k hk]
    exact h.vacant j k ticket newer reply result isLast before hk number lt

theorem enter (h : s.Consistent names last) (step : s.step names (.enter i) = some s') :
    s'.Consistent names (some i) := by
  obtain ⟨ticket, waiting, free, rfl⟩ := step_enter_eq_some.1 step
  have same := apply_update LoadPhase.ticket? (.vacated ticket) waiting rfl
  refine ⟨h.ordered.of_ticket?_eq rfl same, ?_, ?_, ?_, ⟨?_, ?_⟩, ?_, ?_⟩
  · intro j
    by_cases eq : j = i
    · subst eq
      simp [LoadPhase.IsInside]
    · have outside : ¬ (s.phase j).IsInside := by
        rw [← h.holder_iff, free]
        simp
      simp [eq, Ne.symm eq, outside]
  · intro j holds
    exact holds
  · intro j _
    exact s.session.isVacant_vacate
  · intro j isLast
    obtain rfl := Option.some.inj isLast
    simp [LoadPhase.HasEntered]
  · simp
  · intro j ticket reply summary isLast finished
    obtain rfl := Option.some.inj isLast
    simp at finished
  · intro j k ticket newer reply result isLast finished
    obtain rfl := Option.some.inj isLast
    simp at finished

theorem answer {reply : StoreReply} (h : s.Consistent names last)
    (step : s.step names (.answer i reply) = some s') : s'.Consistent names last := by
  obtain ⟨ticket, waiting, rfl⟩ := step_answer_eq_some.1 step
  have same := apply_update LoadPhase.ticket? (.answered ticket reply) waiting rfl
  have inside := apply_update LoadPhase.IsInside (.answered ticket reply) waiting rfl
  have entered := apply_update LoadPhase.HasEntered (.answered ticket reply) waiting rfl
  obtain ⟨_, last_eq⟩ := h.of_isInside (i := i) (by rw [waiting]; trivial)
  refine ⟨h.ordered.of_ticket?_eq rfl same, ?_, h.last_of_holder, h.vacant_of_holder,
    h.entries.of_hasEntered_eq entered, ?_, ?_⟩
  · intro j
    rw [h.holder_iff, inside]
  · intro j ticket reply summary isLast finished
    obtain rfl := Option.some.inj (last_eq.symm.trans isLast)
    simp at finished
  · intro j k ticket newer reply result isLast finished
    obtain rfl := Option.some.inj (last_eq.symm.trans isLast)
    simp at finished

theorem leave (h : s.Consistent names last) (step : s.step names (.leave i) = some s') :
    s'.Consistent names last := by
  obtain ⟨ticket, reply, answered, rfl⟩ := step_leave_eq_some.1 step
  generalize outcome : s.session.settle ticket (names i) reply = settled
  have settled_eq : settled.2 = (s.session.settle ticket (names i) reply).2 := by rw [outcome]
  have same := apply_update LoadPhase.ticket? (.finished ticket reply settled.1) answered rfl
  have entered := apply_update LoadPhase.HasEntered (.finished ticket reply settled.1) answered rfl
  obtain ⟨holds, last_eq⟩ := h.of_isInside (i := i) (by rw [answered]; trivial)
  refine ⟨h.ordered.of_ticket?_eq (by simp [settled_eq]) same, ?_, by simp, by simp,
    h.entries.of_hasEntered_eq entered, ?_, ?_⟩
  · intro j
    by_cases eq : j = i
    · subst eq
      simp [LoadPhase.IsInside]
    · have outside : ¬ (s.phase j).IsInside := by
        rw [← h.holder_iff, holds]
        simp [Ne.symm eq]
      simp [eq, outside]
  · intro j number answer summary isLast finished
    obtain rfl := Option.some.inj (last_eq.symm.trans isLast)
    simp only [Function.update_self, LoadPhase.finished.injEq] at finished
    obtain ⟨rfl, rfl, loaded⟩ := finished
    exact Session.shows_of_settle_eq_loaded (outcome.trans (Prod.ext loaded rfl))
  · intro j k number newer answer result isLast finished hk taken lt
    obtain rfl := Option.some.inj (last_eq.symm.trans isLast)
    simp only [Function.update_self, LoadPhase.finished.injEq] at finished
    obtain ⟨rfl, rfl, -⟩ := finished
    rw [same] at taken
    have := h.ordered.ticket_le k newer taken
    rw [settled_eq, Session.settle_of_tickets_ne (by omega)]
    exact h.vacant_of_holder i holds

/-- **An event keeps a shared session consistent.** -/
theorem step (h : s.Consistent names last) {event : LoadEvent ι}
    (step : s.step names event = some s') : s'.Consistent names (event.entry?.or last) := by
  cases event with
  | takeTicket i => exact h.takeTicket step
  | enter i => exact h.enter step
  | answer i reply => exact h.answer step
  | leave i => exact h.leave step

end Consistent

/-- **A schedule keeps a shared session consistent.** -/
theorem consistent_of_run {session : Session} {schedule : List (LoadEvent ι)}
    (h : (atRest session).run names schedule = some s) :
    s.Consistent names (LoadEvent.lastEntry schedule) := by
  induction schedule using List.reverseRecOn generalizing s with
  | nil =>
      obtain rfl := Option.some.inj h
      exact consistent_atRest session
  | append_singleton before event ih =>
      rw [run, List.foldlM_append, Option.bind_eq_bind, Option.bind_eq_some_iff] at h
      obtain ⟨middle, first, last⟩ := h
      have done : middle.step names event = some s := by simpa using last
      rw [LoadEvent.lastEntry_append]
      exact (ih first).step done

end SharedSession

end CloudCanvas
