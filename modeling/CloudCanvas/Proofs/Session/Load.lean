import CloudCanvas.Proofs.Archive.Restore
import CloudCanvas.Proofs.Session.Interleaving

/-!
# A load is all or nothing

Whatever a store answers, a load that no other one overlaps ends in one of two ways: the
session holds the whole of the design that was found, under the name that was asked for, or
it holds nothing at all and the load has failed.

## Main definitions

* `Topology.summary`: how much there is in a drawing.
* `Session.Offers`: the archive that a reply comes down to, if all is well with it.
* `Session.Holds`: the session holds the design of an archive under a name.

The main statement is `Session.load_all_or_nothing`.
-/

namespace CloudCanvas

/-- How many nodes, groups and links there are. -/
def Topology.summary (t : Topology) : LoadSummary :=
  ⟨t.nodes.length, t.groups.length, t.links.length⟩

theorem Archive.Describes.summary_eq {a : Archive} {t : Topology} (h : a.Describes t) :
    a.summary = t.summary := by
  have same := congrArg Archive.summary h
  simpa [summary, withoutNulls, Topology.archive, Topology.summary] using same.symm

namespace Session

/-- A reply offers an archive if the store has found a design, and if its text can be read as
records that can be restored. -/
def Offers (reply : StoreReply) (a : Archive) : Prop :=
  ∃ status body, reply = .ok (status, body) ∧ isSuccess status = true ∧
    readDesign body = .ok a ∧ a.Coherent

/-- The session holds the design of an archive under a name. -/
structure Holds (s : Session) (name : String) (a : Archive) : Prop where
  named : s.name = some name
  wellFormed : s.topology.WellFormed
  describes : a.Describes s.topology

variable {s after : Session} {name : String} {a : Archive} {reply : StoreReply}
  {result : Except SessionError LoadOutcome}

/-! ## The end of a load -/

/-- What is installed is the design of the archive, if it has one. -/
theorem install_cases (unnamed : s.name = none) (h : s.install name a = (result, after)) :
    (a.Coherent ∧ after.Holds name a ∧ result = .ok (.loaded after.topology.summary)) ∨
      (¬ a.Coherent ∧ after.IsVacant ∧ ∃ e, result = .error e) := by
  rw [install, Topology.load] at h
  cases restored : a.restore with
  | ok t =>
      rw [restored] at h
      obtain ⟨rfl, rfl⟩ := Prod.mk.inj h
      have describes := Archive.describes_of_restore restored
      refine .inl ⟨Archive.exists_restore_iff_coherent.1 ⟨t, restored⟩, ?_, ?_⟩
      · exact ⟨rfl, Archive.restore_wellFormed restored, describes⟩
      · rw [describes.summary_eq]
  | error e =>
      rw [restored] at h
      obtain ⟨rfl, rfl⟩ := Prod.mk.inj h
      refine .inr ⟨fun coherent => ?_, ⟨rfl, unnamed⟩, _, rfl⟩
      obtain ⟨t, found⟩ := Archive.exists_restore_iff_coherent.2 coherent
      cases restored.symm.trans found

/-- What a reply offers whose text can be read. -/
theorem offers_iff {status : ℕ} {body : String} (success : isSuccess status = true)
    (read : readDesign body = .ok a) {b : Archive} :
    Offers (.ok (status, body)) b ↔ b = a ∧ a.Coherent := by
  constructor
  · intro ⟨_, _, same, _, read', coherent⟩
    cases same
    obtain rfl := Except.ok.inj (read.symm.trans read')
    exact ⟨rfl, coherent⟩
  · rintro ⟨rfl, coherent⟩
    exact ⟨status, body, rfl, success, read, coherent⟩

/-- **The newest load ends with the design that it is offered, or with nothing.** -/
theorem settle_newest (vacant : s.IsVacant)
    (h : s.settle s.tickets name reply = (result, after)) :
    (∃ a, Offers reply a ∧ after.Holds name a ∧
        result = .ok (.loaded after.topology.summary)) ∨
      ((∀ a, ¬ Offers reply a) ∧ after.IsVacant ∧ ∃ e, result = .error e) := by
  -- the cases come in the order in which a load looks at the reply
  cases reply with
  | error fault =>
      obtain ⟨rfl, rfl⟩ := Prod.mk.inj h
      exact .inr ⟨by simp [Offers], vacant, _, rfl⟩
  | ok answer =>
      obtain ⟨status, body⟩ := answer
      cases success : isSuccess status with
      | false =>
          simp only [settle, success, Bool.not_false, if_true] at h
          obtain ⟨rfl, rfl⟩ := Prod.mk.inj h
          exact .inr ⟨by simp [Offers, success], vacant, _, rfl⟩
      | true =>
          simp only [settle, success, Bool.not_true, Bool.false_eq_true, if_false, ne_eq,
            not_true_eq_false] at h
          cases read : readDesign body with
          | error e =>
              rw [read] at h
              obtain ⟨rfl, rfl⟩ := Prod.mk.inj h
              exact .inr ⟨by simp [Offers, read], vacant, _, rfl⟩
          | ok a =>
              rw [read] at h
              rcases install_cases vacant.2 h with ⟨coherent, holds⟩ | ⟨incoherent, failed⟩
              · exact .inl ⟨a, (offers_iff success read).2 ⟨rfl, coherent⟩, holds⟩
              · have nothing : ∀ b, ¬ Offers (.ok (status, body)) b := fun b offers =>
                  incoherent ((offers_iff success read).1 offers).2
                exact .inr ⟨nothing, failed⟩

/-! ## A whole load -/

section Load

variable {σ : Type} [DesignStore σ] (s : Session) (store : σ)

/-- A load without a name is not one. -/
theorem load_of_blank (blank : isAllBlank name = true) :
    s.load store name = (.error .emptyName, s, store) := by
  rw [load, if_pos blank]

/-- A load with a name takes a ticket, asks the store once, and ends with its reply. -/
theorem exists_load_of_not_blank (named : isAllBlank name = false) :
    ∃ result after, s.load store name = (result, after, (DesignStore.load store name).2) ∧
      after.tickets = s.tickets + 1 ∧
        (Session.mk ∅ none (s.tickets + 1)).settle (s.tickets + 1) name
          (DesignStore.load store name).1 = (result, after) := by
  refine ⟨_, _, ?_, ?_, rfl⟩
  · rw [load, named]
    rfl
  · exact tickets_settle _ _ _ _

/-- **A load is all or nothing**, whatever the session held and whatever the store answers.
Without a name nothing changes, and the store is not asked.  With a name a ticket is taken.
If the reply offers an archive, the session holds the design of that archive under the name,
and the load reports how much there is in it; otherwise the load fails and the session holds
nothing. -/
theorem load_all_or_nothing (name : String) :
    (isAllBlank name = true → s.load store name = (.error .emptyName, s, store)) ∧
      (isAllBlank name = false → ∃ result after,
        s.load store name = (result, after, (DesignStore.load store name).2) ∧
          after.tickets = s.tickets + 1 ∧
            ((∃ a, Offers (DesignStore.load store name).1 a ∧ after.Holds name a ∧
                result = .ok (.loaded after.topology.summary)) ∨
              ((∀ a, ¬ Offers (DesignStore.load store name).1 a) ∧ after.IsVacant ∧
                ∃ e, result = .error e))) := by
  refine ⟨s.load_of_blank store, fun named => ?_⟩
  obtain ⟨result, after, loaded, ticket, settled⟩ := s.exists_load_of_not_blank store named
  exact ⟨result, after, loaded, ticket, settle_newest ⟨rfl, rfl⟩ settled⟩

end Load

/-- A session with a drawing fails to load a design of which a link ends at nothing, and loads
that design without the link. -/
theorem load_all_or_nothing_dangling :
    let node : Node := ⟨"vm", "virtual-machine", ∅, none, none⟩
    let sound : Archive := ⟨[node], [], []⟩
    let dangling : Archive := ⟨[node], [], [⟨"link-1", "vm", "ghost", ∅⟩]⟩
    let store : MemoryStore := ⟨Dict.ofList [("sound", sound.text), ("dangling", dangling.text)]⟩
    let s : Session := ⟨⟨[node], [], []⟩, some "draft", 4⟩
    (s.load store "dangling").2.1.IsVacant ∧ (s.load store "sound").2.1.Holds "sound" sound ∧
      (s.load store " ").2.1 = s := by
  intro node sound dangling store s
  have refused : (s.load store "dangling").1 =
      .error (.inconsistent (.danglingEndpoint "link-1" "ghost")) := by decide +kernel
  have loaded : (s.load store "sound").1 = .ok (.loaded ⟨1, 0, 0⟩) := by decide +kernel
  have read : readDesign sound.text = .ok sound := by decide +kernel
  refine ⟨?_, ?_, ?_⟩
  · obtain ⟨result, after, eq, -, ⟨a, -, -, done⟩ | ⟨-, vacant, -⟩⟩ :=
      (load_all_or_nothing s store "dangling").2 (by decide)
    · rw [eq, done] at refused
      cases refused
    · rw [eq]
      exact vacant
  · obtain ⟨result, after, eq, -, ⟨a, offers, holds, -⟩ | ⟨-, -, e, failed⟩⟩ :=
      (load_all_or_nothing s store "sound").2 (by decide)
    · have reply : (DesignStore.load store "sound").1 = .ok (200, sound.text) := by
        decide +kernel
      rw [reply, offers_iff rfl read] at offers
      rw [eq, ← offers.1]
      exact holds
    · rw [eq, failed] at loaded
      cases loaded
  · rw [(load_all_or_nothing s store " ").1 (by decide)]

end Session

end CloudCanvas
