import CloudCanvas.Proofs.Topology.Reachable
import CloudCanvas.Session
import CloudCanvas.Store.Memory

/-!
# Histories of a session

A workspace is a session beside a store in memory.  What is done in it, one step after
another, is a history; other programs may write to the store between the steps of the
session.

## Main definitions

* `Workspace`, `WorkspaceStep`, `Workspace.apply`, `Workspace.run`: histories.
* `WorkspaceStep.WritesUnder`: the steps that can replace the text under a name.

A history keeps a drawing one that edits can make (`Workspace.reachable_run`), and keeps
the text under a name that none of its steps writes under (`Workspace.get?_run`).
-/

namespace CloudCanvas

/-- A session and the store that it saves to. -/
structure Workspace where
  session : Session
  store : MemoryStore
deriving DecidableEq

/-- What can be done in a workspace. -/
inductive WorkspaceStep where
  | edit (edit : Edit)
  | clear
  | load (name : String)
  /-- A load that is asked for while another waits for the store. -/
  | race (slow fast : String)
  | save (name : String)
  /-- Another program saves a text. -/
  | write (name data : String)
deriving DecidableEq

/-- Whether a step saves something under a name. -/
def WorkspaceStep.WritesUnder (name : String) : WorkspaceStep → Prop
  | .save other | .write other _ => other = name
  | .edit _ | .clear | .load _ | .race _ _ => False

namespace Workspace

/-- Take a step. -/
def apply (w : Workspace) : WorkspaceStep → Workspace
  | .edit edit => { w with session := (w.session.edit edit).2 }
  | .clear => { w with session := w.session.clear }
  | .load name =>
    let (_, session, store) := w.session.load w.store name
    ⟨session, store⟩
  | .race slow fast =>
    let (_, session, store) := w.session.race w.store slow fast
    ⟨session, store⟩
  | .save name =>
    let (_, session, store) := w.session.save w.store name
    ⟨session, store⟩
  | .write name data => { w with store := (w.store.save name data).2 }

/-- Take steps one after another. -/
def run (w : Workspace) (steps : List WorkspaceStep) : Workspace :=
  steps.foldl apply w

end Workspace

/-! ## The drawing -/

namespace Topology

variable {t : Topology}

theorem reachable_empty : (∅ : Topology).Reachable := ⟨[], rfl⟩

theorem Reachable.apply (h : t.Reachable) (edit : Edit) : (t.apply edit).2.Reachable := by
  obtain ⟨edits, rfl⟩ := h
  exact ⟨edits ++ [edit], by rw [run, run, List.foldl_append]; rfl⟩

theorem Reachable.load (h : t.Reachable) (a : Archive) : (t.load a).2.Reachable := by
  have loaded := h.apply (.load a)
  rwa [Topology.apply, snd_outcome] at loaded

end Topology

namespace Session

variable {s : Session} {σ : Type} [DesignStore σ]

/-- A load ends by installing a design that the store has given it, or it leaves the
session alone. -/
theorem settle_cases (s : Session) (ticket : ℕ) (name : String) (reply : StoreReply) :
    ((s.settle ticket name reply).2 = s ∧
      ∀ summary, (s.settle ticket name reply).1 ≠ .ok (.loaded summary)) ∨
    (s.tickets = ticket ∧ ∃ status body archive, reply = .ok (status, body) ∧
      isSuccess status = true ∧ readDesign body = .ok archive ∧
        s.settle ticket name reply = s.install name archive) := by
  unfold settle
  split
  · simp
  rename_i status body
  split
  · simp
  rename_i success
  split
  · simp
  rename_i newest
  split
  · simp
  · rename_i archive read
    exact .inr ⟨not_not.1 newest, status, body, archive, rfl, by simpa using success, read, rfl⟩

theorem reachable_install (h : s.topology.Reachable) (name : String) (a : Archive) :
    (s.install name a).2.topology.Reachable := by
  have loaded := h.load a
  rw [install]
  split <;> rename_i result <;> simpa [result] using loaded

theorem reachable_settle (h : s.topology.Reachable) (ticket : ℕ) (name : String)
    (reply : StoreReply) : (s.settle ticket name reply).2.topology.Reachable := by
  rcases s.settle_cases ticket name reply with ⟨left, _⟩ | ⟨_, _, _, archive, _, _, _, installed⟩
  · rw [left]
    exact h
  · rw [installed]
    exact reachable_install h name archive

theorem reachable_loadWithTicket (s : Session) (store : σ) (ticket : ℕ) (name : String) :
    (s.loadWithTicket store ticket name).2.1.topology.Reachable :=
  reachable_settle Topology.reachable_empty _ _ _

theorem reachable_load (h : s.topology.Reachable) (store : σ) (name : String) :
    (s.load store name).2.1.topology.Reachable := by
  rw [load]
  split
  · exact h
  · exact reachable_loadWithTicket _ _ _ _

theorem reachable_race (h : s.topology.Reachable) (store : σ) (slow fast : String) :
    (s.race store slow fast).2.1.topology.Reachable := by
  rw [race]
  split
  · exact reachable_load h store fast
  · dsimp only
    split
    · exact reachable_loadWithTicket _ _ _ _
    · exact reachable_loadWithTicket _ _ _ _

/-- A save does not touch the drawing. -/
theorem topology_save (s : Session) (store : σ) (name : String) :
    (s.save store name).2.1.topology = s.topology := by
  rw [save]
  split
  · rfl
  · split
    · rfl
    · split
      · rfl
      · split <;> rfl

end Session

namespace Workspace

variable {w : Workspace}

theorem reachable_apply (h : w.session.topology.Reachable) (step : WorkspaceStep) :
    (w.apply step).session.topology.Reachable := by
  cases step with
  | edit edit => exact h.apply edit
  | clear => exact Topology.reachable_empty
  | load name => exact Session.reachable_load h w.store name
  | race slow fast => exact Session.reachable_race h w.store slow fast
  | save name => exact (Session.topology_save w.session w.store name).symm ▸ h
  | write name data => exact h

/-- **A history of a session makes no drawing that edits cannot make.** -/
theorem reachable_run (h : w.session.topology.Reachable) (steps : List WorkspaceStep) :
    (w.run steps).session.topology.Reachable := by
  induction steps generalizing w with
  | nil => exact h
  | cons step steps ih => exact ih (reachable_apply h step)

end Workspace

/-! ## The store -/

namespace MemoryStore

variable {store : MemoryStore} {name other data text : String}

/-- A save is kept under its name. -/
theorem get?_save_self (h : isSuccess (store.save name data).1 = true) :
    (store.save name data).2.designs.get? name = some data := by
  rw [save] at h ⊢
  split
  · simp
  · rename_i invalid
    rw [if_neg invalid] at h
    simp [isSuccess, Status.badRequest] at h

/-- A save leaves the other names alone. -/
theorem get?_save_of_ne (ne : name ≠ other) :
    (store.save other data).2.designs.get? name = store.designs.get? name := by
  rw [save]
  split
  · simp [ne]
  · rfl

end MemoryStore

namespace Session

variable (s : Session) (store : MemoryStore)

theorem store_load (name : String) : (s.load store name).2.2 = store := by
  rw [load]
  split <;> rfl

theorem store_race (slow fast : String) : (s.race store slow fast).2.2 = store := by
  rw [race]
  split
  · exact store_load s store fast
  · dsimp only
    split <;> rfl

theorem get?_save_of_ne {name other : String} (ne : name ≠ other) :
    (s.save store other).2.2.designs.get? name = store.designs.get? name := by
  rw [save]
  split
  · rfl
  · split
    · rfl
    · rename_i archive _
      have kept : (store.save other archive.text).2.designs.get? name =
          store.designs.get? name := MemoryStore.get?_save_of_ne ne
      rw [← kept]
      simp only [DesignStore.save]
      split <;> rfl

end Session

namespace Workspace

variable {w : Workspace} {name : String}

theorem get?_apply {step : WorkspaceStep} (untouched : ¬ step.WritesUnder name) :
    (w.apply step).store.designs.get? name = w.store.designs.get? name := by
  cases step with
  | edit edit => rfl
  | clear => rfl
  | load other => exact congrArg (·.designs.get? name) (Session.store_load w.session w.store other)
  | race slow fast =>
      exact congrArg (·.designs.get? name) (Session.store_race w.session w.store slow fast)
  | save other => exact Session.get?_save_of_ne w.session w.store fun eq => untouched eq.symm
  | write other data => exact MemoryStore.get?_save_of_ne fun eq => untouched eq.symm

/-- **The text under a name stays what it is until something is saved under it.** -/
theorem get?_run {steps : List WorkspaceStep}
    (untouched : ∀ step ∈ steps, ¬ step.WritesUnder name) :
    (w.run steps).store.designs.get? name = w.store.designs.get? name := by
  induction steps generalizing w with
  | nil => rfl
  | cons step steps ih =>
      obtain ⟨first, later⟩ := List.forall_mem_cons.1 untouched
      exact (ih later).trans (get?_apply first)

end Workspace

end CloudCanvas
