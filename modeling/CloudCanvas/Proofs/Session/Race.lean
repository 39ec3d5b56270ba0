import CloudCanvas.Proofs.Session.Calls
import CloudCanvas.Proofs.Session.Load
import CloudCanvas.Proofs.Session.Newest
import CloudCanvas.Store.Memory

/-!
# A load that overtakes another

While one load waits for the store, another is asked for.  The second takes its ticket at once
and then waits for the lock, so from there on there is one way only in which the two can go on.
The first load is overtaken, whatever text the store has for it; only a store that cannot be
reached or that refuses is reported first.  The second load then finds what it would find if
nothing else had happened.  A second load without a name takes no ticket and overtakes nothing.

## Main definitions

* `Session.overtaken`: what a load reports that has been overtaken.
* `Session.DecidesRace`: how two such loads end.
* `BusySession.EndsIn`: calls that can go on in one way only, and where this ends.

The main statement is `BusySession.race_decides`.
-/

namespace CloudCanvas

variable {α σ : Type}

namespace Session

variable {s : Session} {ticket : ℕ} {name slow fast : String} {reply : StoreReply}

/-- What a load reports to which the store replies when a newer load has taken its ticket. -/
def overtaken : StoreReply → Except SessionError LoadOutcome
  | .error fault => .error (.unreachable fault)
  | .ok (status, _) => if isSuccess status then .ok .superseded else .error (.rejected .load status)

/-- A load that has been overtaken changes nothing when it ends. -/
theorem settle_eq_overtaken (ne : s.tickets ≠ ticket) :
    s.settle ticket name reply = (overtaken reply, s) := by
  rcases reply with fault | ⟨status, body⟩
  · rfl
  · cases success : isSuccess status with
    | true => simp [settle, overtaken, success, ne]
    | false => simp [settle, overtaken, success]

/-- How the newest load ends does not depend on how many there have been. -/
theorem settle_renumber (t : Topology) (old : Option String) (m n : ℕ) :
    (Session.mk t old n).settle n name reply =
      (((Session.mk t old m).settle m name reply).1,
        { ((Session.mk t old m).settle m name reply).2 with tickets := n }) := by
  rcases reply with fault | ⟨status, body⟩
  · rfl
  cases success : isSuccess status with
  | false => simp [settle, success]
  | true =>
      cases read : readDesign body with
      | error e => simp [settle, success, read]
      | ok archive =>
          have installs (k : ℕ) : (Session.mk t old k).settle k name (.ok (status, body)) =
              (Session.mk t old k).install name archive := by
            simp [settle, success, read]
          rw [installs, installs]
          simp only [install]
          rcases t.load archive with ⟨summary | e, u⟩ <;> rfl

section Race

variable [DesignStore σ] (s : Session) (store : σ)

/-- **How two loads end of which the second is asked for while the first waits for the store.** -/
structure DecidesRace (s : Session) (store : σ) (slow fast : String)
    (slowResult fastResult : Except SessionError LoadOutcome) (after : Session) (left : σ) :
    Prop where
  /-- A load without a name does not disturb the other. -/
  undisturbed : isAllBlank fast = true →
    fastResult = .error .emptyName ∧ (slowResult, after, left) = s.load store slow
  /-- The first load reports that it has been overtaken, unless the store has failed it. -/
  overtaken : isAllBlank fast = false →
    slowResult = Session.overtaken (DesignStore.load store slow).1
  /-- The second load ends as it does by itself, whatever there was before. -/
  alone : isAllBlank fast = false → ∀ other : Session,
    let (result, session, next) := other.load (DesignStore.load store slow).2 fast
    fastResult = result ∧ after.topology = session.topology ∧ after.name = session.name ∧
      left = next

theorem decidesRace_race (named : isAllBlank slow = false) :
    s.DecidesRace store slow fast (s.race store slow fast).1.1 (s.race store slow fast).1.2
      (s.race store slow fast).2.1 (s.race store slow fast).2.2 := by
  cases blank : isAllBlank fast with
  | true =>
      have noName (named : isAllBlank fast = false) : False :=
        Bool.noConfusion (blank.symm.trans named)
      refine ⟨fun _ => ?_, fun h => (noName h).elim, fun h => (noName h).elim⟩
      simp [race, load, named, blank]
  | false =>
      let late : Session := ⟨∅, none, s.tickets + 2⟩
      let replied := DesignStore.load store slow
      let found := DesignStore.load replied.2 fast
      have settled : late.settle (s.tickets + 1) slow replied.1 =
          (Session.overtaken replied.1, late) :=
        settle_eq_overtaken (by simp [late])
      have raced : s.race store slow fast =
          let first := late.settle (s.tickets + 1) slow replied.1
          let second := first.2.vacate.settle (s.tickets + 2) fast found.1
          ((first.1, second.1), second.2, found.2) := by
        rw [race, named, blank]
        rfl
      rw [settled] at raced
      rw [raced]
      refine ⟨fun h => Bool.noConfusion (h.symm.trans blank), fun _ => rfl, fun _ other => ?_⟩
      have renumbered : late.vacate.settle (s.tickets + 2) fast found.1 = _ :=
        settle_renumber ∅ none (other.tickets + 1) (s.tickets + 2)
      have loaded : other.load replied.2 fast =
          (((Session.mk ∅ none (other.tickets + 1)).settle (other.tickets + 1) fast found.1).1,
            ((Session.mk ∅ none (other.tickets + 1)).settle (other.tickets + 1) fast found.1).2,
            found.2) := by
        rw [load, blank]
        rfl
      rw [loaded]
      dsimp only
      rw [renumbered]
      exact ⟨rfl, rfl, rfl, rfl⟩

end Race

end Session

namespace BusySession

variable [DesignStore σ]

/-! ## One way to go on -/

section EndsIn

variable {ι : Type} [DecidableEq ι] {calls : ι → SessionCall α}
  {s s' next final : BusySession ι α σ} {event : CallEvent ι} {i : ι}

/-- **Calls that can go on in one way only**, and where this ends. -/
inductive EndsIn (calls : ι → SessionCall α) : BusySession ι α σ → BusySession ι α σ → Prop
  | stop {s : BusySession ι α σ} (rest : ∀ i, s.IsAtRest calls i)
      (stuck : ∀ event, s.step calls event = none) : EndsIn calls s s
  | onward {s next final : BusySession ι α σ} {event : CallEvent ι} {i : ι}
      (busy : ¬ s.IsAtRest calls i) (only : ∀ other ≠ event, s.step calls other = none)
      (step : s.step calls event = some next) (later : EndsIn calls next final) :
      EndsIn calls s final

namespace EndsIn

theorem rest (h : EndsIn calls s final) (i : ι) : final.IsAtRest calls i := by
  induction h with
  | stop rest _ => exact rest i
  | onward _ _ _ _ ih => exact ih

theorem exists_run (h : EndsIn calls s final) :
    ∃ schedule, s.run calls schedule = some final := by
  induction h with
  | stop => exact ⟨[], rfl⟩
  | @onward s next final event _ _ _ step _ ih =>
      obtain ⟨schedule, through⟩ := ih
      exact ⟨event :: schedule, by rw [run_cons, step, Option.bind_some, through]⟩

/-- Every schedule that leaves nothing under way ends there. -/
theorem eq_of_run (h : EndsIn calls s final) {schedule : List (CallEvent ι)}
    (through : s.run calls schedule = some s') (rest : ∀ i, s'.IsAtRest calls i) : s' = final := by
  induction h generalizing schedule with
  | @stop s _ stuck =>
      cases schedule with
      | nil => exact (Option.some.inj through).symm
      | cons event later =>
          rw [run_cons, stuck] at through
          cases through
  | @onward s next final event i busy only step _ ih =>
      cases schedule with
      | nil =>
          obtain rfl := Option.some.inj through
          exact absurd (rest i) busy
      | cons first later =>
          by_cases same : first = event
          · rw [run_cons, same, step, Option.bind_some] at through
            exact ih through
          · rw [run_cons, only first same] at through
            cases through

end EndsIn

/-- What a load does next, if it can go on. -/
def next? (calls : ι → SessionCall α) (s : BusySession ι α σ) (i : ι) : Option (CallEvent ι) :=
  match s.shared.phase i with
  | .asked => if isAllBlank (calls i).loadName then none else some (.takeTicket i)
  | .ticketed _ => if s.shared.holder.isSome then none else some (.enter i)
  | .vacated _ => some (.answer i)
  | .answered _ _ => some (.leave i)
  | .finished _ _ _ => none

/-- Loads do nothing but what they do next. -/
theorem next?_of_step (loads : ∀ i, (calls i).isLoad = true)
    (step : s.step calls event = some s') : s.next? calls event.call = some event := by
  have notOther {j : ι} (other : (calls j).isLoad = false) : False :=
    Bool.noConfusion ((loads j).symm.trans other)
  cases event with
  | takeTicket i =>
      obtain ⟨-, shared, taken, -⟩ := step_takeTicket_eq_some.1 step
      obtain ⟨asked, named, -⟩ := SharedSession.step_takeTicket_eq_some.1 taken
      have named : isAllBlank (calls i).loadName = false := named
      simp [next?, CallEvent.call, asked, named]
  | enter i =>
      obtain ⟨-, ⟨-, shared, entered, -⟩ | ⟨other, -⟩⟩ := step_enter_eq_some.1 step
      · obtain ⟨ticket, waiting, free, -⟩ := SharedSession.step_enter_eq_some.1 entered
        simp [next?, CallEvent.call, waiting, free]
      · exact (notOther other).elim
  | act i => exact (notOther (step_act_eq_some.1 step).1).elim
  | answer i =>
      obtain ⟨-, shared, answered, -⟩ := step_answer_eq_some.1 step
      obtain ⟨ticket, vacated, -⟩ := SharedSession.step_answer_eq_some.1 answered
      simp [next?, CallEvent.call, vacated]
  | leave i =>
      obtain ⟨-, shared, left, -⟩ | ⟨other, -⟩ := step_leave_eq_some.1 step
      · obtain ⟨ticket, reply, answered, -⟩ := SharedSession.step_leave_eq_some.1 left
        simp [next?, CallEvent.call, answered]
      · exact (notOther other).elim
  | store i =>
      obtain ⟨name, _, _, save, -⟩ := step_store_eq_some.1 step
      exact (notOther (j := i) (by rw [save]; rfl)).elim
  | name i =>
      obtain ⟨_, clear, -⟩ | ⟨name, _, _, save, -⟩ := step_name_eq_some.1 step
      · exact (notOther (j := i) (by rw [clear]; rfl)).elim
      · exact (notOther (j := i) (by rw [save]; rfl)).elim

/-- One load goes on while the others cannot. -/
theorem EndsIn.of_next? (loads : ∀ i, (calls i).isLoad = true) (busy : ¬ s.IsAtRest calls i)
    (own : s.next? calls i = some event) (others : ∀ j ≠ i, s.next? calls j = none)
    (step : s.step calls event = some next) (later : EndsIn calls next final) :
    EndsIn calls s final := by
  refine .onward busy (fun other ne => ?_) step later
  rw [Option.eq_none_iff_forall_ne_some]
  intro s' stepped
  have possible := next?_of_step loads stepped
  by_cases same : other.call = i
  · rw [same, own] at possible
    exact ne (Option.some.inj possible).symm
  · rw [others _ same] at possible
    cases possible

/-- Loads that cannot go on stay as they are. -/
theorem EndsIn.of_done (loads : ∀ i, (calls i).isLoad = true) (rest : ∀ i, s.IsAtRest calls i)
    (done : ∀ i, s.next? calls i = none) : EndsIn calls s s := by
  refine .stop rest fun event => ?_
  rw [Option.eq_none_iff_forall_ne_some]
  intro s' stepped
  cases (done event.call).symm.trans (next?_of_step loads stepped)

/-- The session when the load that has the lock has got its reply, has settled and has given the
lock back. -/
def settled (calls : ι → SessionCall α) (s : BusySession ι α σ) (i : ι) (ticket : ℕ) :
    BusySession ι α σ :=
  let (reply, store) := DesignStore.load s.store (calls i).loadName
  let (result, session) := s.shared.session.settle ticket (calls i).loadName reply
  { s with
    shared := ⟨session, none, Function.update s.shared.phase i (.finished ticket reply result)⟩
    store }

/-- A load that has the lock settles while the others cannot go on. -/
theorem EndsIn.of_vacated (loads : ∀ i, (calls i).isLoad = true) {ticket : ℕ}
    (phase : s.shared.phase i = .vacated ticket) (others : ∀ j ≠ i, s.next? calls j = none)
    (later : EndsIn calls (s.settled calls i ticket) final) : EndsIn calls s final := by
  let replied := DesignStore.load s.store (calls i).loadName
  let waiting : BusySession ι α σ := { s with
    shared := { s.shared with
      phase := Function.update s.shared.phase i (.answered ticket replied.1) }
    store := replied.2 }
  have phase' : waiting.shared.phase i = .answered ticket replied.1 := Function.update_self ..
  have answered : s.step calls (.answer i) = some waiting :=
    step_answer_eq_some.2 ⟨loads i, _, SharedSession.step_answer_eq_some.2 ⟨_, phase, rfl⟩, rfl⟩
  have left : waiting.step calls (.leave i) = some (s.settled calls i ticket) := by
    refine step_leave_eq_some.2 (.inl ⟨loads i, _,
      SharedSession.step_leave_eq_some.2 ⟨_, _, phase', rfl⟩, ?_⟩)
    simp [waiting, settled, loadNames, replied]
  have others' (j : ι) (ne : j ≠ i) : waiting.next? calls j = none := by
    rw [← others j ne]
    simp [next?, waiting, ne]
  refine .of_next? loads (i := i) ?_ (by simp [next?, phase]) others answered
    (.of_next? loads (i := i) ?_ (by simp [next?, phase']) others' left later)
  · simp [IsAtRest, loads, phase, LoadPhase.IsAtRest]
  · simp [IsAtRest, loads, phase', LoadPhase.IsAtRest]

end EndsIn

/-! ## Two loads -/

section Two

variable {s : Session} {store : σ} {slow fast : String}

/-- Two loads: the slow one and the fast one. -/
def loads (slow fast : String) : Bool → SessionCall α :=
  SharedSession.pair (.load slow) (.load fast)

/-- Beside one of two calls there is the other only. -/
private theorem forall_ne_of_not {P : Bool → Prop} {i : Bool} (other : P !i) : ∀ j ≠ i, P j :=
  fun _ ne => Bool.eq_not.2 ne ▸ other

omit [DesignStore σ] in
theorem isLoad_loads (i : Bool) : (loads slow fast i : SessionCall α).isLoad = true := by
  cases i <;> rfl

/-- A session that two loads have got so far with. -/
def underLoads (session : Session) (holder : Option Bool) (slow fast : LoadPhase) (store : σ) :
    BusySession Bool α σ :=
  ⟨⟨session, holder, SharedSession.pair slow fast⟩, ∅, fun _ => .asked, store⟩

/-- The first load waits for the store when the second is asked for, which takes its ticket if it
has a name. -/
def challenge (fast : String) : List (CallEvent Bool) :=
  [.takeTicket false, .enter false] ++ if isAllBlank fast then [] else [.takeTicket true]

theorem run_challenge_blank (named : isAllBlank slow = false) (blank : isAllBlank fast = true) :
    (atRest s store : BusySession Bool α σ).run (loads slow fast) (challenge fast) =
      some (underLoads ⟨∅, none, s.tickets + 1⟩ (some false) (.vacated (s.tickets + 1)) .asked
        store) := by
  simp [challenge, blank, run, step, advance?, SharedSession.step, atRest, underLoads,
    SharedSession.atRest_eq_pair, loads, loadNames, SessionCall.isLoad, SessionCall.loadName,
    lock, Lock.Admits, named, Session.takeTicket, Session.vacate]

theorem run_challenge_named (named : isAllBlank slow = false) (both : isAllBlank fast = false) :
    (atRest s store : BusySession Bool α σ).run (loads slow fast) (challenge fast) =
      some (underLoads ⟨∅, none, s.tickets + 2⟩ (some false) (.vacated (s.tickets + 1))
        (.ticketed (s.tickets + 2)) store) := by
  simp [challenge, both, run, step, advance?, SharedSession.step, atRest, underLoads,
    SharedSession.atRest_eq_pair, loads, loadNames, SessionCall.isLoad, SessionCall.loadName,
    lock, Lock.Admits, named, Session.takeTicket, Session.vacate]

theorem settled_false {session : Session} {holder : Option Bool} {p q : LoadPhase} {ticket : ℕ} :
    (underLoads session holder p q store : BusySession Bool α σ).settled (loads slow fast) false
        ticket =
      let (reply, next) := DesignStore.load store slow
      let (result, after) := session.settle ticket slow reply
      underLoads after none (.finished ticket reply result) q next := by
  simp [settled, underLoads, loads, SessionCall.loadName]

theorem settled_true {session : Session} {holder : Option Bool} {p q : LoadPhase} {ticket : ℕ} :
    (underLoads session holder p q store : BusySession Bool α σ).settled (loads slow fast) true
        ticket =
      let (reply, next) := DesignStore.load store fast
      let (result, after) := session.settle ticket fast reply
      underLoads after none p (.finished ticket reply result) next := by
  simp [settled, underLoads, loads, SessionCall.loadName]

theorem step_enter_true {session : Session} {p : LoadPhase} {ticket : ℕ} :
    (underLoads session none p (.ticketed ticket) store : BusySession Bool α σ).step
        (loads slow fast) (.enter true) =
      some (underLoads session.vacate (some true) p (.vacated ticket) store) := by
  refine step_enter_eq_some.2 ⟨⟨rfl, fun _ => rfl⟩, .inl ⟨rfl, _,
    SharedSession.step_enter_eq_some.2 ⟨_, rfl, rfl, rfl⟩, ?_⟩⟩
  simp [underLoads]

/-- A load is followed by nothing if the other has no name. -/
theorem endsIn_blank (blank : isAllBlank fast = true) {session : Session} {ticket : ℕ} :
    EndsIn (loads slow fast : Bool → SessionCall α)
      (underLoads session (some false) (.vacated ticket) .asked store)
      ((underLoads session (some false) (.vacated ticket) .asked store).settled
        (loads slow fast) false ticket) := by
  have idle (s : BusySession Bool α σ) (asked : s.shared.phase true = .asked) :
      s.next? (loads slow fast) true = none := by
    simp [next?, asked, loads, SessionCall.loadName, blank]
  refine .of_vacated (i := false) isLoad_loads rfl (forall_ne_of_not (idle _ rfl)) ?_
  rw [settled_false]
  refine .of_done isLoad_loads ?_ ?_
  · rintro (_ | _) <;> trivial
  · rintro (_ | _)
    · rfl
    · exact idle _ rfl

/-- A load is followed by the other if that has its ticket. -/
theorem endsIn_ticketed {session : Session} {older newer : ℕ} :
    let start : BusySession Bool α σ :=
      underLoads session (some false) (.vacated older) (.ticketed newer) store
    let (reply, next) := DesignStore.load store slow
    let (result, after) := session.settle older slow reply
    EndsIn (loads slow fast) start
      ((underLoads after.vacate (some true) (.finished older reply result) (.vacated newer)
        next).settled (loads slow fast) true newer) := by
  -- the second load waits for the lock, and the first is over when the second gets it
  refine .of_vacated (i := false) isLoad_loads rfl (forall_ne_of_not rfl) ?_
  rw [settled_false]
  refine .of_next? (i := true) isLoad_loads not_false rfl (forall_ne_of_not rfl) step_enter_true ?_
  refine .of_vacated (i := true) isLoad_loads rfl (forall_ne_of_not rfl) ?_
  rw [settled_true]
  refine .of_done isLoad_loads ?_ ?_
  · rintro (_ | _) <;> trivial
  · rintro (_ | _) <;> rfl

/-- Two loads have ended with these results, and have left a session and a store. -/
structure ShowsRace (final : BusySession Bool α σ) (slow fast : String)
    (slowResult fastResult : Except SessionError LoadOutcome) (after : Session) (left : σ) :
    Prop where
  first : final.outcome? (loads slow fast) false = some (.loaded slowResult)
  /-- A load without a name reports without having done anything. -/
  second : isAllBlank fast = false →
    final.outcome? (loads slow fast) true = some (.loaded fastResult)
  session : final.shared.session = after
  store : final.store = left

/-- Behind the challenge, two loads go on in one way only and end as in a race. -/
theorem exists_endsIn (α : Type) (s : Session) (store : σ) (named : isAllBlank slow = false) :
    ∃ start final : BusySession Bool α σ,
      (atRest s store).run (loads slow fast) (challenge fast) = some start ∧
      EndsIn (loads slow fast) start final ∧
      final.ShowsRace slow fast (s.race store slow fast).1.1 (s.race store slow fast).1.2
        (s.race store slow fast).2.1 (s.race store slow fast).2.2 := by
  cases blank : isAllBlank fast with
  | true =>
      refine ⟨_, _, run_challenge_blank named blank, endsIn_blank blank, ?_⟩
      rw [settled_false, Session.race, named, blank]
      exact ⟨rfl, fun h => Bool.noConfusion (blank.symm.trans h), rfl, rfl⟩
  | false =>
      refine ⟨_, _, run_challenge_named named blank, endsIn_ticketed, ?_⟩
      rw [settled_true, Session.race, named, blank]
      exact ⟨rfl, fun _ => rfl, rfl, rfl⟩

/-- **How two loads end of which the second is asked for while the first waits for the store.**
There is one way only in which they can go on from there, and it comes to this.  If the second
has no name, it says so, and the first ends as it does by itself.  Otherwise the first has been
overtaken, whatever text the store has for it, and it reports so unless the store has failed it;
the second ends as it does by itself on what is left of the store, and so do the drawing and its
name. -/
theorem race_decides (α : Type) (s : Session) (store : σ) {slow : String} (fast : String)
    (named : isAllBlank slow = false) :
    ∃ slowResult fastResult after left,
      s.race store slow fast = ((slowResult, fastResult), after, left) ∧
      s.DecidesRace store slow fast slowResult fastResult after left ∧
      (∃ (later : List (CallEvent Bool)) (final : BusySession Bool α σ),
        (atRest s store).run (loads slow fast) (challenge fast ++ later) = some final ∧
          ∀ i, final.IsAtRest (loads slow fast) i) ∧
      ∀ (later : List (CallEvent Bool)) (final : BusySession Bool α σ),
        (atRest s store).run (loads slow fast) (challenge fast ++ later) = some final →
          (∀ i, final.IsAtRest (loads slow fast) i) →
            final.ShowsRace slow fast slowResult fastResult after left := by
  obtain ⟨start, final, challenged, ends, shows⟩ := exists_endsIn α s store named
  obtain ⟨later, through⟩ := ends.exists_run
  refine ⟨_, _, _, _, rfl, s.decidesRace_race store named, ⟨later, final, ?_, ends.rest⟩, ?_⟩
  · rw [run_append, challenged, Option.bind_some, through]
  · intro later other through rest
    rw [run_append, challenged, Option.bind_some] at through
    rwa [ends.eq_of_run through rest]

/-- A load of a text that is no design is overtaken nevertheless. -/
theorem race_decides_malformed :
    let design : Archive := ⟨[⟨"vm", "virtual-machine", ∅, none, none⟩], [], []⟩
    let store : MemoryStore := ⟨Dict.ofList [("fast", design.text), ("slow", "]")]⟩
    let s : Session := ⟨∅, some "draft", 4⟩
    let calls : Bool → SessionCall Unit := loads "slow" "fast"
    (s.load store "slow").1 = .error .malformedDesign ∧
      ∃ later final, (atRest s store).run calls (challenge "fast" ++ later) = some final ∧
        final.outcome? calls false = some (.loaded (.ok .superseded)) ∧
        final.outcome? calls true = some (.loaded (.ok (.loaded ⟨1, 0, 0⟩))) ∧
        final.shared.session.name = some "fast" := by
  intro design store s calls
  obtain ⟨slowResult, fastResult, after, left, -, decides, ⟨later, final, through, rest⟩, ends⟩ :=
    race_decides Unit s store "fast" (show isAllBlank "slow" = false by decide)
  have named : isAllBlank "fast" = false := by decide
  have shows := ends later final through rest
  have reply : (DesignStore.load store "slow").1 = .ok (200, "]") := by decide +kernel
  have overtaken := decides.overtaken named
  rw [reply] at overtaken
  obtain ⟨result, -, name, -⟩ := decides.alone named s
  have alone : (s.load store "fast").1 = .ok (.loaded ⟨1, 0, 0⟩) := by decide +kernel
  have fastName : (s.load store "fast").2.1.name = some "fast" := by decide +kernel
  refine ⟨by decide +kernel, later, final, through, ?_, ?_, ?_⟩
  · rw [shows.first, overtaken]
    rfl
  · rw [shows.second named, result]
    exact congrArg (some ∘ CallOutcome.loaded) alone
  · rw [shows.session, name]
    exact fastName

end Two

end BusySession

end CloudCanvas
