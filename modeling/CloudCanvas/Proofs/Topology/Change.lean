import CloudCanvas.Proofs.Fold
import CloudCanvas.Topology.Batch
import CloudCanvas.Topology.History

/-!
# Changes in place and on a copy

A change in place that is refused can leave the topology half changed, as a batch does.  It
does not if it looks for every fault before its first step that changes something and cannot be
refused from there on.  All single edits are made so, and then it makes no difference whether
they are made in place or on a copy that takes the place of the topology if all goes well.

## Main definitions

* `Change.LooksOnly`, `Change.Passes`, `Change.Atomic`: steps that change nothing, steps that
  are not refused, and steps that leave nothing behind if they are.
* `Topology.settle`: a topology with what a change on a copy comes to.

The main statements are `Change.Atomic.outcome_eq` and, for the insertions,
`Change.atomic_addNode`, `Change.atomic_addGroup` and `Change.atomic_addLink`.
-/

namespace CloudCanvas

variable {α β : Type} {t : Topology}

namespace Topology

/-! ## Step by step -/

theorem after_bind (change : Change α) (next : α → Change β) :
    t.after (change >>= next) =
      match t.after change with
      | (.ok a, u) => u.after (next a)
      | (.error e, u) => (.error e, u) := by
  -- the state goes on whatever the result, which only the continuation looks at
  have run : t.after (change >>= next) = match t.after change with
      | (result, u) => StateT.run (ExceptT.bindCont next result) u := rfl
  rw [run]
  rcases t.after change with ⟨e | a, u⟩ <;> rfl

/-- Steps after a look at the topology know it. -/
theorem after_get_bind (next : Topology → Change α) :
    t.after (get >>= next) = t.after (next t) := rfl

theorem after_check (fault? : Topology → Option IntegrityError) :
    t.after (Change.check fault?) =
      match fault? t with
      | some e => (.error e, t)
      | none => (.ok (), t) := by
  rw [Change.check, after_get_bind]
  cases fault? t <;> rfl

/-- On a copy, too, one step goes on with what the other has made. -/
theorem tried_bind (change : Change α) (next : α → Change β) :
    t.tried (change >>= next) = t.tried change >>= fun made => made.2.tried (next made.1) := by
  rw [tried, tried, after_bind]
  rcases t.after change with ⟨e | a, u⟩ <;> rfl

theorem tried_check (fault? : Topology → Option IntegrityError) :
    t.tried (Change.check fault?) =
      match fault? t with
      | some e => .error e
      | none => .ok ((), t) := by
  rw [tried, after_check]
  cases fault? t <;> rfl

/-- Of two checks one after the other the first fault counts. -/
theorem tried_checks (first second : Topology → Option IntegrityError) (change : Change α) :
    t.tried (do Change.check first; Change.check second; change) =
      match first t <|> second t with
      | some e => .error e
      | none => t.tried change := by
  rw [tried_bind, tried_check]
  cases first t with
  | some e => rfl
  | none =>
      rw [ok_bind, tried_bind, tried_check]
      cases second t <;> rfl

/-- A row of changes on one copy is made like a row of changes on a copy each. -/
theorem map_tried_forM (change : α → Change Unit) (row : List α) :
    (t.tried (row.forM change)).map (·.2) =
      row.foldlM (fun t a => (t.tried (change a)).map (·.2)) t := by
  induction row generalizing t with
  | nil => rfl
  | cons a row ih =>
      have first : (a :: row).forM change = change a >>= fun _ => row.forM change := rfl
      rw [first, tried_bind, List.foldlM_cons]
      cases t.tried (change a) with
      | error e => rfl
      | ok made => exact ih

end Topology

/-! ## All or nothing -/

namespace Change

/-- Steps that leave every topology as it is. -/
def LooksOnly (change : Change α) : Prop :=
  ∀ t : Topology, (t.after change).2 = t

/-- Steps that no topology refuses. -/
def Passes (change : Change α) : Prop :=
  ∀ (t : Topology) e, (t.after change).1 ≠ .error e

/-- Where the steps are refused, they leave the topology as it was. -/
def Atomic (change : Change α) : Prop :=
  ∀ (t : Topology) e, (t.after change).1 = .error e → (t.after change).2 = t

variable {change : Change α} {next : α → Change β}

theorem looksOnly_check (fault? : Topology → Option IntegrityError) :
    LooksOnly (check fault?) := by
  intro t
  rw [Topology.after_check]
  cases fault? t <;> rfl

theorem passes_modify (f : Topology → Topology) : Passes (modify f) := by
  intro t e refused
  cases refused

theorem passes_pure (a : α) : Passes (pure a) := by
  intro t e refused
  cases refused

theorem Passes.bind (first : change.Passes) (rest : ∀ a, (next a).Passes) :
    (change >>= next).Passes := by
  intro t e refused
  rw [Topology.after_bind] at refused
  cases made : t.after change with
  | mk result u =>
      cases result with
      | error e' => exact first t e' (by rw [made])
      | ok a =>
          rw [made] at refused
          exact rest a u e refused

theorem Passes.atomic (passes : change.Passes) : change.Atomic :=
  fun t e refused => absurd refused (passes t e)

/-- Nothing is left behind by steps that follow others which only look. -/
theorem LooksOnly.atomic_bind (looks : change.LooksOnly) (rest : ∀ a, (next a).Atomic) :
    (change >>= next).Atomic := by
  intro t e refused
  have same := looks t
  rw [Topology.after_bind] at refused ⊢
  cases made : t.after change with
  | mk result u =>
      rw [made] at same refused
      obtain rfl : u = t := same
      cases result with
      | error e' => rfl
      | ok a => exact rest a u e refused

/-- Two checks with nothing changed between them, and then steps that are not refused. -/
theorem atomic_of_checks (first second : Topology → Option IntegrityError)
    {change : Change α} (passes : change.Passes) :
    (do check first; check second; change).Atomic :=
  (looksOnly_check first).atomic_bind fun _ =>
    (looksOnly_check second).atomic_bind fun _ => passes.atomic

/-- **The insertion of a node is all or nothing**, although the group around it is changed before
the node is there. -/
theorem atomic_addNode (node : Node) : (addNode node).Atomic :=
  atomic_of_checks _ _ ((passes_modify _).bind fun _ => passes_modify _)

/-- **The insertion of a group is all or nothing.** -/
theorem atomic_addGroup (group : Group) : (addGroup group).Atomic :=
  atomic_of_checks _ _ ((passes_modify _).bind fun _ => passes_modify _)

/-- **The insertion of a link is all or nothing.** -/
theorem atomic_addLink (link : Link) : (addLink link).Atomic :=
  atomic_of_checks _ _ (passes_modify _)

/-- A batch of insertions is not: of two nodes with one id the first stays behind. -/
theorem not_atomic_addNodes : let node : Node := ⟨"a", "public-ip", ∅, none, none⟩
    ¬ (addNodes [node, node]).Atomic := by
  intro node atomic
  have kept := atomic ∅ (.duplicateId "a") (by decide)
  exact absurd kept (by decide)

theorem looksOnly_properties (id : String) : (properties id).LooksOnly := by
  intro t
  rw [properties, Topology.after_get_bind]
  cases t.properties? id <;> rfl

theorem atomic_setProperty (id name : String) (value : Value) :
    (setProperty id name value).Atomic :=
  (looksOnly_properties id).atomic_bind fun _ => (passes_modify _).atomic

theorem atomic_removeProperty (id name : String) : (removeProperty id name).Atomic :=
  (looksOnly_properties id).atomic_bind fun _ =>
    ((passes_modify _).bind fun _ => passes_pure _).atomic

end Change

/-! ## In place or on a copy -/

/-- A change in place leaves what its steps have made. -/
@[simp] theorem Topology.snd_outcome (done : α → EditOutcome)
    (made : Except IntegrityError α × Topology) : (Topology.outcome done made).2 = made.2 := by
  rcases made with ⟨e | a, u⟩ <;> rfl

/-- **A change that is all or nothing comes to the same in place and on a copy**, if a refusal
leaves the original. -/
theorem Change.Atomic.outcome_eq {change : Change α} (atomic : change.Atomic) (t : Topology)
    (done : α → EditOutcome) : Topology.outcome done (t.after change) =
      match t.tried change with
      | .ok (a, next) => (done a, next)
      | .error e => (.refused e, t) := by
  have kept := atomic t
  rw [Topology.tried]
  rcases made : t.after change with ⟨e | a, u⟩
  · rw [made] at kept
    obtain rfl : u = t := kept e rfl
    rfl
  · rfl

namespace Topology

/-- What a change on a copy comes to, which leaves the original if it is refused. -/
def settle (t : Topology) (result : Except IntegrityError Topology) : EditOutcome × Topology :=
  match result with
  | .ok next => (.done, next)
  | .error e => (.refused e, t)

theorem outcome_eq_settle {change : Change Unit} (atomic : change.Atomic) (t : Topology) :
    outcome (fun _ => .done) (t.after change) = t.settle ((t.tried change).map (·.2)) := by
  rw [atomic.outcome_eq]
  rcases t.tried change with e | ⟨-, next⟩ <;> rfl

theorem apply_addNode (t : Topology) (node : Node) :
    t.apply (.addNode node) = t.settle (t.addNode node) :=
  outcome_eq_settle (Change.atomic_addNode node) t

theorem apply_addGroup (t : Topology) (group : Group) :
    t.apply (.addGroup group) = t.settle (t.addGroup group) :=
  outcome_eq_settle (Change.atomic_addGroup group) t

theorem apply_addLink (t : Topology) (link : Link) :
    t.apply (.addLink link) = t.settle (t.addLink link) :=
  outcome_eq_settle (Change.atomic_addLink link) t

theorem apply_setProperty (t : Topology) (id name : String) (value : Value) :
    t.apply (.setProperty id name value) = t.settle (t.setProperty id name value) :=
  outcome_eq_settle (Change.atomic_setProperty id name value) t

theorem apply_removeProperty (t : Topology) (id name : String) :
    t.apply (.removeProperty id name) =
      match t.removeProperty id name with
      | .ok (any, next) => (.removed any, next)
      | .error e => (.refused e, t) := by
  rw [apply, (Change.atomic_removeProperty id name).outcome_eq, removeProperty]
  rcases t.tried (Change.removeProperty id name) with e | ⟨any, next⟩ <;> rfl

end Topology

end CloudCanvas
