import Mathlib.Data.List.Forall2
import Mathlib.Data.List.Induction

/-!
# Computations that can fail

A sequence of steps gives a result if every step does, a row of computations gives a row of
results, and a fold keeps what every step keeps.
-/

namespace CloudCanvas

variable {ε α β : Type}

theorem ok_bind (a : α) (f : α → Except ε β) : Except.ok a >>= f = f a := rfl

theorem error_bind (e : ε) (f : α → Except ε β) : Except.error e >>= f = .error e := rfl

theorem bind_eq_ok_iff {x : Except ε α} {f : α → Except ε β} {b : β} :
    x >>= f = .ok b ↔ ∃ a, x = .ok a ∧ f a = .ok b := by
  cases x <;> simp [bind, Except.bind]

theorem bind_eq_error_iff {x : Except ε α} {f : α → Except ε β} {e : ε} :
    x >>= f = .error e ↔ x = .error e ∨ ∃ a, x = .ok a ∧ f a = .error e := by
  cases x <;> simp [bind, Except.bind]

/-- Two results of which one view is the same. -/
theorem map_eq_map_cases {x y : Except ε α} {f : α → β} (same : x.map f = y.map f) :
    (∃ e, x = .error e ∧ y = .error e) ∨ ∃ a b, x = .ok a ∧ y = .ok b ∧ f a = f b := by
  cases x with
  | error e =>
      cases y with
      | error e' =>
          cases same
          exact .inl ⟨e, rfl, rfl⟩
      | ok b => cases same
  | ok a =>
      cases y with
      | error e' => cases same
      | ok b => exact .inr ⟨a, b, rfl, rfl, Except.ok.inj same⟩

/-- Two computations that come to the same as far as a view shows do so as well when they are
gone on with alike. -/
theorem bind_map_eq {x y : Except ε α} {f g : α → Except ε α} {view : α → β}
    (same : x.map view = y.map view)
    (next : ∀ b c, view b = view c → (f b).map view = (g c).map view) :
    (x >>= f).map view = (y >>= g).map view := by
  rcases map_eq_map_cases same with ⟨e, rfl, rfl⟩ | ⟨b, c, rfl, rfl, seen⟩
  · rfl
  · exact next b c seen

theorem exists_eq_ok_of_isOk {x : Except ε α} (h : x.isOk = true) : ∃ a, x = .ok a := by
  cases x with
  | error e => cases h
  | ok a => exact ⟨a, rfl⟩

/-! ## Rows -/

/-- Whatever stands in one of two related rows has its counterpart in the other. -/
theorem exists_mem_of_forall₂ {α β : Type} {R : α → β → Prop} {xs : List α} {ys : List β}
    (h : List.Forall₂ R xs ys) {x : α} (mem : x ∈ xs) : ∃ y ∈ ys, R x y := by
  induction h with
  | nil => simp at mem
  | @cons a b xs ys first rest ih =>
      rcases List.mem_cons.1 mem with rfl | mem
      · exact ⟨b, List.mem_cons_self, first⟩
      · obtain ⟨y, listed, related⟩ := ih mem
        exact ⟨y, List.mem_cons_of_mem _ listed, related⟩

/-- A computation that gives a result on each element of a row gives them in their order. -/
theorem mapM_eq_some_iff {f : α → Option β} {xs : List α} {ys : List β} :
    xs.mapM f = some ys ↔ List.Forall₂ (fun x y => f x = some y) xs ys := by
  induction xs generalizing ys with
  | nil => simp [eq_comm]
  | cons x xs ih =>
      simp only [List.mapM_cons, Option.bind_eq_bind, Option.bind_eq_some_iff, Option.pure_def,
        Option.some.injEq, List.forall₂_cons_left_iff, ih]
      constructor
      · rintro ⟨y, first, rest, later, rfl⟩
        exact ⟨y, rest, first, later, rfl⟩
      · rintro ⟨y, rest, first, later, rfl⟩
        exact ⟨y, first, rest, later, rfl⟩

/-! ## Folds -/

variable {step : β → α → Except ε β} {xs : List α} {b c : β}

theorem foldlM_cons_eq_ok_iff {x : α} :
    (x :: xs).foldlM step b = .ok c ↔ ∃ d, step b x = .ok d ∧ xs.foldlM step d = .ok c := by
  rw [List.foldlM_cons, bind_eq_ok_iff]

theorem exists_foldlM_cons_eq_ok_iff {x : α} :
    (∃ c, (x :: xs).foldlM step b = .ok c) ↔
      ∃ d, step b x = .ok d ∧ ∃ c, xs.foldlM step d = .ok c := by
  simp only [foldlM_cons_eq_ok_iff]
  constructor
  · intro ⟨c, d, first, rest⟩
    exact ⟨d, first, c, rest⟩
  · intro ⟨d, first, c, rest⟩
    exact ⟨c, d, first, rest⟩

/-- Two folds over rows whose elements are stepped over alike. -/
theorem foldlM_congr {step' : β → α → Except ε β} {Alike : α → α → Prop} {ys : List α}
    (rows : List.Forall₂ Alike xs ys)
    (alike : ∀ x ∈ xs, ∀ y ∈ ys, Alike x y → ∀ b, step b x = step' b y) :
    xs.foldlM step b = ys.foldlM step' b := by
  induction rows generalizing b with
  | nil => rfl
  | cons first _ ih =>
      have later : ∀ b, _ := fun b => ih (b := b) fun x mem y mem' =>
        alike x (List.mem_cons_of_mem _ mem) y (List.mem_cons_of_mem _ mem')
      rw [List.foldlM_cons, List.foldlM_cons,
        alike _ List.mem_cons_self _ List.mem_cons_self first]
      exact bind_congr later

/-- What a step keeps, a fold keeps. -/
theorem foldlM_keeps {P : β → Prop} (keeps : ∀ b x c, P b → step b x = .ok c → P c)
    (hb : P b) (h : xs.foldlM step b = .ok c) : P c := by
  induction xs generalizing b with
  | nil =>
      obtain rfl := Except.ok.inj h
      exact hb
  | cons x xs ih =>
      obtain ⟨d, hd, rest⟩ := foldlM_cons_eq_ok_iff.1 h
      exact ih (keeps b x d hb hd) rest

/-- What a step keeps, as a fact about what has been read, a fold knows of the whole list. -/
theorem foldlM_collects {P : List α → β → Prop} (start : P [] b)
    (one_more : ∀ before x b c, P before b → step b x = .ok c → P (before ++ [x]) c)
    (h : xs.foldlM step b = .ok c) : P xs c := by
  suffices later : ∀ after before b, P before b → after.foldlM step b = .ok c →
      P (before ++ after) c from later xs [] b start h
  intro after
  induction after with
  | nil =>
      intro before b holds done
      cases done
      rwa [List.append_nil]
  | cons x after ih =>
      intro before b holds done
      obtain ⟨d, first, rest⟩ := foldlM_cons_eq_ok_iff.1 done
      simpa using ih (before ++ [x]) d (one_more before x b d holds first) rest

/-- **A fold succeeds exactly if what it reads is sound**, for soundness that grows with each
element that fits, if the invariant knows what has been read and a step succeeds exactly on
what fits. -/
theorem exists_foldlM_iff (Holds : List α → β → Prop) (Sound : List α → Prop)
    {Fits : List α → α → Prop} (start : Holds [] b) (empty : Sound [])
    (concat : ∀ before x, Sound (before ++ [x]) ↔ Sound before ∧ Fits before x)
    (one_more : ∀ before x b c, Holds before b → step b x = .ok c → Holds (before ++ [x]) c)
    (fits : ∀ before x b, Holds before b → ((∃ c, step b x = .ok c) ↔ Fits before x)) :
    (∃ c, xs.foldlM step b = .ok c) ↔ Sound xs := by
  induction xs using List.reverseRecOn with
  | nil => exact iff_of_true ⟨b, rfl⟩ empty
  | append_singleton xs x ih =>
      rw [concat, ← ih, List.foldlM_append]
      simp only [List.foldlM_cons, List.foldlM_nil, bind_pure, bind_eq_ok_iff]
      constructor
      · intro ⟨c, d, first, last⟩
        exact ⟨⟨d, first⟩, (fits xs x d (foldlM_collects start one_more first)).1 ⟨c, last⟩⟩
      · intro ⟨⟨d, first⟩, fit⟩
        obtain ⟨c, last⟩ := (fits xs x d (foldlM_collects start one_more first)).2 fit
        exact ⟨c, d, first, last⟩

/-- A fold fails at one of its steps, behind steps that succeed. -/
theorem foldlM_eq_error_iff {e : ε} : xs.foldlM step b = .error e ↔ ∃ before x after c,
    xs = before ++ x :: after ∧ before.foldlM step b = .ok c ∧ step c x = .error e := by
  constructor
  · intro failed
    induction xs generalizing b with
    | nil => cases failed
    | cons x xs ih =>
        rw [List.foldlM_cons] at failed
        cases first : step b x with
        | error e' =>
            rw [first] at failed
            cases failed
            exact ⟨[], x, xs, b, rfl, rfl, first⟩
        | ok d =>
            rw [first] at failed
            obtain ⟨before, y, after, c, rfl, done, last⟩ := ih failed
            exact ⟨x :: before, y, after, c, rfl, foldlM_cons_eq_ok_iff.2 ⟨d, first, done⟩, last⟩
  · intro ⟨before, x, after, c, split, done, last⟩
    rw [split, List.foldlM_append, done]
    change List.foldlM step c (x :: after) = _
    rw [List.foldlM_cons, last]
    rfl

/-- **A fold fails at the first element that does not fit**, behind elements that are sound, if
the invariant knows of what has been read why a step fails. -/
theorem foldlM_eq_error_iff_refused (Holds : List α → β → Prop) (Sound : List α → Prop)
    {Refused : List α → α → ε → Prop}
    (sound : ∀ before, (∃ c, before.foldlM step b = .ok c) ↔ Sound before)
    (holds : ∀ before c, before.foldlM step b = .ok c → Holds before c)
    (refused : ∀ before x c e, Holds before c → (step c x = .error e ↔ Refused before x e))
    {e : ε} : xs.foldlM step b = .error e ↔
      ∃ before x after, xs = before ++ x :: after ∧ Sound before ∧ Refused before x e := by
  rw [foldlM_eq_error_iff]
  constructor
  · intro ⟨before, x, after, c, split, done, last⟩
    have fault := (refused before x c e (holds before c done)).1 last
    exact ⟨before, x, after, split, (sound before).1 ⟨c, done⟩, fault⟩
  · intro ⟨before, x, after, split, first, fault⟩
    obtain ⟨c, done⟩ := (sound before).2 first
    have last := (refused before x c e (holds before c done)).2 fault
    exact ⟨before, x, after, c, split, done, last⟩

end CloudCanvas
