import CloudCanvas.Proofs.Session.Interleaving

/-!
# The newest load

Of several loads at the same time the newest is meant to fill the session.  It does if
it also gets the lock last; an older load that gets the lock behind it empties the
session and leaves it so.

## Main definitions

* `SharedSession.raceSchedule`: a load asked for while another waits for the store.

The main statement is `SharedSession.shows_iff_lastEntry`.
-/

namespace CloudCanvas

namespace SharedSession

/-! ## A race as a schedule -/

/-- The second load takes its ticket while the first waits for the store, and gets the
lock when the first has given it back. -/
def raceSchedule (slow fast : StoreReply) : List (LoadEvent Bool) :=
  [.takeTicket false, .enter false, .takeTicket true, .answer false slow, .leave false,
    .enter true, .answer true fast, .leave true]

/-- What belongs to each of two loads. -/
def pair {α : Type} (older newer : α) : Bool → α
  | false => older
  | true => newer

section
variable {α : Type} (older newer next : α)

@[simp] theorem pair_false : pair older newer false = older := rfl
@[simp] theorem pair_true : pair older newer true = newer := rfl

@[simp] theorem update_pair_false :
    Function.update (pair older newer) false next = pair next newer := by
  funext i
  cases i <;> simp

@[simp] theorem update_pair_true :
    Function.update (pair older newer) true next = pair older next := by
  funext i
  cases i <;> simp

theorem atRest_eq_pair (s : Session) : atRest s = ⟨s, none, pair .asked .asked⟩ := by
  rw [atRest, SharedSession.mk.injEq]
  exact ⟨rfl, rfl, funext fun i => by cases i <;> rfl⟩

end

/-- **`Session.race` is one schedule of two loads.** -/
theorem run_raceSchedule {σ : Type} [DesignStore σ] (s : Session) (store : σ) {slow fast : String}
    (slowNamed : isAllBlank slow = false) (fastNamed : isAllBlank fast = false) :
    let (slowReply, next) := DesignStore.load store slow
    let (fastReply, _) := DesignStore.load next fast
    let (results, after, _) := s.race store slow fast
    ∃ final, (atRest s).run (pair slow fast) (raceSchedule slowReply fastReply) = some final ∧
      final.session = after ∧
      final.phase false = .finished (s.tickets + 1) slowReply results.1 ∧
      final.phase true = .finished (s.tickets + 2) fastReply results.2 := by
  simp [run, raceSchedule, step, atRest_eq_pair, slowNamed, fastNamed, Session.race,
    Session.takeTicket, Session.loadWithTicket, Session.vacate]

/-! ## Who wins -/

variable {ι : Type} [DecidableEq ι] {names : ι → String} {s : SharedSession ι} {i : ι}

/-- **The newest load wins just if it got the lock last.**  When all loads are over and
the one with the highest ticket reported a design, the session holds that design if no
other load got the lock behind it, and else nothing at all. -/
theorem shows_iff_lastEntry {session : Session} {schedule : List (LoadEvent ι)}
    (h : (atRest session).run names schedule = some s) (rest : ∀ j, (s.phase j).IsAtRest)
    {ticket : ℕ} {reply : StoreReply} {summary : LoadSummary}
    (loaded : s.phase i = .finished ticket reply (.ok (.loaded summary)))
    (newest : ∀ j other, (s.phase j).ticket? = some other → other ≤ ticket) :
    (s.session.Shows (names i) reply ↔ LoadEvent.lastEntry schedule = some i) ∧
      (LoadEvent.lastEntry schedule ≠ some i → s.session.IsVacant) := by
  have consistent := consistent_of_run h
  have entered : (s.phase i).HasEntered := by
    rw [loaded]
    trivial
  have emptied : LoadEvent.lastEntry schedule ≠ some i → s.session.IsVacant := by
    intro ne
    obtain ⟨j, isLast⟩ := Option.ne_none_iff_exists'.1 (consistent.entries.ne_none i entered)
    have entered_j := consistent.entries.hasEntered j isLast
    have rest_j := rest j
    cases phase : s.phase j with
    | asked => simp [phase, LoadPhase.HasEntered] at entered_j
    | ticketed _ => simp [phase, LoadPhase.IsAtRest] at rest_j
    | vacated _ => simp [phase, LoadPhase.IsAtRest] at rest_j
    | answered _ _ => simp [phase, LoadPhase.IsAtRest] at rest_j
    | finished older other result =>
        have le : older ≤ ticket := newest j older (by rw [phase]; rfl)
        have ne_ticket : older ≠ ticket := by
          intro eq
          have same := consistent.ordered.injective j i ticket (by rw [phase, eq]; rfl)
            (by rw [loaded]; rfl)
          exact ne (same ▸ isLast)
        exact consistent.vacant j i older ticket other result isLast phase entered
          (by rw [loaded]; rfl) (by omega)
  refine ⟨⟨?_, ?_⟩, emptied⟩
  · intro shows
    by_contra ne
    exact (emptied ne).not_shows shows
  · intro isLast
    exact consistent.shows i ticket reply summary isLast loaded

/-! ## An older load behind the newest -/

/-- A design of one node. -/
def nodeReply (id : String) : StoreReply :=
  .ok (200, "\x7b\"nodes\":[\x7b\"id\":\"" ++ id ++ "\",\"kind\":\"public-ip\"\x7d]\x7d")

theorem settle_older :
    Session.settle ⟨∅, none, 2⟩ 1 "slow" (nodeReply "old") =
      (.ok .superseded, ⟨∅, none, 2⟩) := by
  decide +kernel

theorem settle_newer :
    Session.settle ⟨∅, none, 2⟩ 2 "fast" (nodeReply "new") =
      (.ok (.loaded ⟨1, 0, 0⟩),
        ⟨⟨[⟨"new", "public-ip", ∅, none, none⟩], [], []⟩, some "fast", 2⟩) := by
  decide +kernel

/-- What the two loads come to. -/
def pairPhases : Bool → LoadPhase :=
  pair (.finished 1 (nodeReply "old") (.ok .superseded))
    (.finished 2 (nodeReply "new") (.ok (.loaded ⟨1, 0, 0⟩)))

theorem isAtRest_pairPhases (i : Bool) : (pairPhases i).IsAtRest := by
  cases i <;> trivial

theorem ticket?_pairPhases_le (i : Bool) (ticket : ℕ)
    (taken : (pairPhases i).ticket? = some ticket) : ticket ≤ 2 := by
  cases i <;> simp [pairPhases, pair, LoadPhase.ticket?] at taken <;> omega

/-- In a race the older load is first to get the lock, and the newer one fills the session. -/
theorem shows_race_newer :
    ∃ s, (atRest .start).run (pair "slow" "fast")
        (raceSchedule (nodeReply "old") (nodeReply "new")) = some s ∧
      s.session.Shows "fast" (nodeReply "new") := by
  have done : (atRest .start).run (pair "slow" "fast")
      (raceSchedule (nodeReply "old") (nodeReply "new")) =
        some ⟨⟨⟨[⟨"new", "public-ip", ∅, none, none⟩], [], []⟩, some "fast", 2⟩, none,
          pairPhases⟩ := by
    simp [run, raceSchedule, step, atRest_eq_pair, Session.start, Session.takeTicket,
      Session.vacate, settle_older, settle_newer, pairPhases, isAllBlank, isBlank]
  have last : LoadEvent.lastEntry (raceSchedule (nodeReply "old") (nodeReply "new")) = some true :=
    rfl
  exact ⟨_, done, (shows_iff_lastEntry done isAtRest_pairPhases rfl ticket?_pairPhases_le).1.2 last⟩

/-- Both loads take their tickets, and the newer one is first to get the lock.  It reports
that it has loaded its design, but the older one empties the session behind it. -/
theorem newest_load_lost :
    let schedule : List (LoadEvent Bool) :=
      [.takeTicket false, .takeTicket true, .enter true, .answer true (nodeReply "new"),
        .leave true, .enter false, .answer false (nodeReply "old"), .leave false]
    ∃ s, (atRest .start).run (pair "slow" "fast") schedule = some s ∧
      (∀ i, (s.phase i).IsAtRest) ∧
      s.phase true = .finished 2 (nodeReply "new") (.ok (.loaded ⟨1, 0, 0⟩)) ∧
      (∀ i ticket, (s.phase i).ticket? = some ticket → ticket ≤ 2) ∧
      ¬ s.session.Shows "fast" (nodeReply "new") ∧ s.session = ⟨∅, none, 2⟩ := by
  intro schedule
  have done : (atRest .start).run (pair "slow" "fast") schedule =
      some ⟨⟨∅, none, 2⟩, none, pairPhases⟩ := by
    simp [run, schedule, step, atRest_eq_pair, Session.start, Session.takeTicket,
      Session.vacate, settle_older, settle_newer, pairPhases, isAllBlank, isBlank]
  have empty : Session.IsVacant ⟨∅, none, 2⟩ := ⟨rfl, rfl⟩
  exact ⟨_, done, isAtRest_pairPhases, rfl, ticket?_pairPhases_le, empty.not_shows, rfl⟩

end SharedSession

end CloudCanvas
