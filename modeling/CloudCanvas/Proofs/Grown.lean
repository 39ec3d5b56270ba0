import CloudCanvas.Proofs.Fold
import Mathlib.Data.List.Forall2

/-!
# Rows that have grown

A row grows when elements of it are replaced by elements like them and new ones are put in
between.  What is said of a row by a filter or by a pass over it carries over to the grown
row, if the new elements are none that the filter or the pass looks at.

## Main definitions

* `Grown`: a row and what it has grown to.

The main statement is `Grown.foldlM_map_eq`.
-/

namespace CloudCanvas

variable {α β : Type}

/-- A row, and the row that it has grown to: every element is replaced by one that is alike,
and new elements may stand anywhere. -/
inductive Grown (Alike : α → α → Prop) (New : α → Prop) : List α → List α → Prop
  | nil : Grown Alike New [] []
  | keep {x y : α} {xs ys : List α} (alike : Alike x y) (rest : Grown Alike New xs ys) :
      Grown Alike New (x :: xs) (y :: ys)
  | add {y : α} {xs ys : List α} (fresh : New y) (rest : Grown Alike New xs ys) :
      Grown Alike New xs (y :: ys)

namespace Grown

variable {Alike : α → α → Prop} {New : α → Prop} {xs ys : List α}

theorem refl (same : ∀ x ∈ xs, Alike x x) : Grown Alike New xs xs := by
  induction xs with
  | nil => exact .nil
  | cons x xs ih =>
      obtain ⟨first, others⟩ := List.forall_mem_cons.1 same
      exact .keep first (ih others)

/-- A row of which only single elements change. -/
theorem map (f : α → α) (alike : ∀ x ∈ xs, Alike x (f x)) : Grown Alike New xs (xs.map f) := by
  induction xs with
  | nil => exact .nil
  | cons x xs ih =>
      obtain ⟨first, others⟩ := List.forall_mem_cons.1 alike
      exact .keep first (ih others)

theorem append {xs' ys' : List α} (h : Grown Alike New xs ys) (h' : Grown Alike New xs' ys') :
    Grown Alike New (xs ++ xs') (ys ++ ys') := by
  induction h with
  | nil => exact h'
  | keep alike _ ih => exact .keep alike ih
  | add fresh _ ih => exact .add fresh ih

/-- New elements behind a row. -/
theorem concat {y : α} (h : Grown Alike New xs ys) (fresh : New y) :
    Grown Alike New xs (ys ++ [y]) := by
  simpa using h.append (.add fresh .nil)

theorem of_forall₂ (h : List.Forall₂ Alike xs ys) : Grown Alike New xs ys := by
  induction h with
  | nil => exact .nil
  | cons alike _ ih => exact .keep alike ih

/-- Every element of the row has one that is like it. -/
theorem exists_mem {x : α} (h : Grown Alike New xs ys) (mem : x ∈ xs) : ∃ y ∈ ys, Alike x y := by
  induction h with
  | nil => cases mem
  | keep alike _ ih =>
      rcases List.mem_cons.1 mem with rfl | mem
      · exact ⟨_, List.mem_cons_self, alike⟩
      · obtain ⟨y, listed, alike⟩ := ih mem
        exact ⟨y, List.mem_cons_of_mem _ listed, alike⟩
  | add fresh _ ih =>
      obtain ⟨y, listed, alike⟩ := ih mem
      exact ⟨y, List.mem_cons_of_mem _ listed, alike⟩

/-- A condition that elements alike have in common selects a row that has grown. -/
theorem filter {p : α → Bool} (same : ∀ x y, Alike x y → p y = p x)
    (h : Grown Alike New xs ys) : Grown Alike New (xs.filter p) (ys.filter p) := by
  induction h with
  | nil => exact .nil
  | @keep x y _ _ alike _ ih =>
      rw [List.filter_cons, List.filter_cons, same x y alike]
      split
      · exact .keep alike ih
      · exact ih
  | @add y _ _ fresh _ ih =>
      rw [List.filter_cons]
      split
      · exact .add fresh ih
      · exact ih

theorem map_map {f : α → β} {Alike' : β → β → Prop} {New' : β → Prop}
    (alike : ∀ x y, Alike x y → Alike' (f x) (f y)) (fresh : ∀ y, New y → New' (f y))
    (h : Grown Alike New xs ys) : Grown Alike' New' (xs.map f) (ys.map f) := by
  induction h with
  | nil => exact .nil
  | keep same _ ih => exact .keep (alike _ _ same) ih
  | add new _ ih => exact .add (fresh _ new) ih

/-- A selection in which elements alike show the same and new ones do not show. -/
theorem filterMap_eq {f g : α → Option β} (h : Grown Alike New xs ys)
    (keep : ∀ x ∈ xs, ∀ y, Alike x y → g y = f x) (add : ∀ y, New y → g y = none) :
    ys.filterMap g = xs.filterMap f := by
  induction h with
  | nil => rfl
  | keep alike _ ih =>
      obtain ⟨first, others⟩ := List.forall_mem_cons.1 keep
      rw [List.filterMap_cons, List.filterMap_cons, first _ alike, ih others]
  | add fresh _ ih => rw [List.filterMap_cons, add _ fresh, ih keep]

theorem length_le (h : Grown Alike New xs ys) : xs.length ≤ ys.length := by
  induction h with
  | nil => exact Nat.le_refl 0
  | keep _ _ ih => exact Nat.succ_le_succ ih
  | add _ _ ih => exact Nat.le_succ_of_le ih

/-- A row that has not become longer has no new elements. -/
theorem forall₂ (h : Grown Alike New xs ys) (len : ys.length ≤ xs.length) :
    List.Forall₂ Alike xs ys := by
  induction h with
  | nil => exact .nil
  | keep alike _ ih => exact .cons alike (ih (Nat.le_of_succ_le_succ len))
  | add _ rest _ =>
      have shorter := rest.length_le
      simp only [List.length_cons] at len
      omega

/-- A condition that elements alike have in common and new ones do not meet selects rows that
are alike. -/
theorem forall₂_filter {p : α → Bool} (same : ∀ x y, Alike x y → p y = p x)
    (none : ∀ y, New y → p y = false) (h : Grown Alike New xs ys) :
    List.Forall₂ (fun x y => Alike x y ∧ p x = true) (xs.filter p) (ys.filter p) := by
  induction h with
  | nil => exact .nil
  | @keep x y _ _ alike _ ih =>
      rw [List.filter_cons, List.filter_cons, same x y alike]
      split
      · rename_i selected
        exact .cons ⟨alike, selected⟩ ih
      · exact ih
  | @add y _ _ fresh _ ih => rwa [List.filter_cons_of_neg (by simp [none y fresh])]

/-! ## Passes over the rows -/

variable {γ ε : Type} {step step' : β → α → Except ε β} {view : β → γ}

/-- **A pass over a grown row comes to the same** as far as a view shows, if elements alike do
the same to the view and new ones do nothing to it. -/
theorem foldlM_map_eq
    (keep : ∀ b c, view b = view c → ∀ x ∈ xs, ∀ y ∈ ys, Alike x y →
      (step b x).map view = (step' c y).map view)
    (add : ∀ c, ∀ y ∈ ys, New y → ∃ c', step' c y = .ok c' ∧ view c' = view c)
    (h : Grown Alike New xs ys) {b c : β} (same : view b = view c) :
    (xs.foldlM step b).map view = (ys.foldlM step' c).map view := by
  induction h generalizing b c with
  | nil => exact congrArg Except.ok same
  | @keep x y xs ys alike _ ih =>
      rw [List.foldlM_cons, List.foldlM_cons]
      have first := keep b c same x List.mem_cons_self y List.mem_cons_self alike
      refine bind_map_eq first ?_
      intro b' c' same'
      refine ih ?_ ?_ same'
      · intro b c same x memX y memY
        exact keep b c same x (List.mem_cons_of_mem _ memX) y (List.mem_cons_of_mem _ memY)
      · intro c y mem
        exact add c y (List.mem_cons_of_mem _ mem)
  | @add y xs ys fresh _ ih =>
      rw [List.foldlM_cons]
      obtain ⟨c', done, same'⟩ := add c y List.mem_cons_self fresh
      rw [done, ok_bind]
      refine ih ?_ ?_ (same.trans same'.symm)
      · intro b c same x memX y memY
        exact keep b c same x memX y (List.mem_cons_of_mem _ memY)
      · intro c y mem
        exact add c y (List.mem_cons_of_mem _ mem)

end Grown

end CloudCanvas
