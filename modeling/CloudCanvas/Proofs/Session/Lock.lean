import Mathlib.Data.Finset.Basic
import Mathlib.Logic.Function.Basic

/-!
# A lock to share or to have alone

Many readers can have a lock at the same time, or one writer can have it.  The lock knows who
is inside as long as everybody goes through `Lock.enter` when it admits them, and through
`Lock.leave`.

## Main definitions

* `Stage`: before the lock, inside, or behind it.
* `Lock`, `Lock.Admits`, `Lock.enter`, `Lock.leave`.
* `Lock.Guards`: the lock keeps writers apart from everybody else.

The main statements are `Lock.Guards.enter` and `Lock.Guards.leave`: the lock goes on guarding.
-/

namespace CloudCanvas

variable {ι : Type}

/-- Where a call is with regard to the lock. -/
inductive Stage where
  | waiting
  | inside
  | past
deriving DecidableEq

/-- A lock, and who has it: one call alone, or calls that share it. -/
@[ext] structure Lock (ι : Type) where
  writer : Option ι
  readers : Finset ι

namespace Lock

/-- Whether the lock can be had: by a reader if nobody writes, by a writer if nobody has it. -/
def Admits (lock : Lock ι) (writes : Bool) : Prop :=
  lock.writer = none ∧ (writes = true → lock.readers = ∅)

instance [DecidableEq ι] (lock : Lock ι) (writes : Bool) : Decidable (lock.Admits writes) :=
  inferInstanceAs (Decidable (_ ∧ _))

variable [DecidableEq ι]

/-- Give the lock to a call. -/
def enter (lock : Lock ι) (writes : Bool) (i : ι) : Lock ι :=
  if writes then { lock with writer := some i }
  else { lock with readers := insert i lock.readers }

/-- Take the lock back from a call. -/
def leave (lock : Lock ι) (writes : Bool) (i : ι) : Lock ι :=
  if writes then { lock with writer := none }
  else { lock with readers := lock.readers.erase i }

/-- A lock that keeps writers apart from everybody else: it knows who is inside, and a writer is
there alone. -/
structure Guards (lock : Lock ι) (writes : ι → Bool) (stage : ι → Stage) : Prop where
  writer_iff : ∀ i, lock.writer = some i ↔ writes i = true ∧ stage i = .inside
  mem_readers_iff : ∀ i, i ∈ lock.readers ↔ writes i = false ∧ stage i = .inside
  alone : lock.writer ≠ none → lock.readers = ∅

namespace Guards

variable {lock : Lock ι} {writes : ι → Bool} {stage : ι → Stage} {i : ι}

theorem enter (h : lock.Guards writes stage) (admits : lock.Admits (writes i))
    (waiting : stage i = .waiting) :
    (lock.enter (writes i) i).Guards writes (Function.update stage i .inside) := by
  obtain ⟨free, unshared⟩ := admits
  have outside : ∀ j, writes j = true → stage j ≠ .inside := by
    intro j hj inside
    have holds := (h.writer_iff j).2 ⟨hj, inside⟩
    simp [free] at holds
  cases kind : writes i with
  | true =>
      have empty := unshared kind
      refine ⟨fun j => ?_, fun j => ?_, fun _ => by simpa [Lock.enter] using empty⟩
      · by_cases eq : j = i
        · subst eq
          simp [Lock.enter, kind]
        · have := outside j
          simp only [Lock.enter, if_true, Option.some.injEq, Function.update_of_ne eq]
          grind
      · by_cases eq : j = i
        · subst eq
          simp [Lock.enter, empty, kind]
        · simpa [Lock.enter, Function.update_of_ne eq] using h.mem_readers_iff j
  | false =>
      refine ⟨fun j => ?_, fun j => ?_, fun held => absurd free held⟩
      · by_cases eq : j = i
        · subst eq
          simp [Lock.enter, free, kind]
        · simpa [Lock.enter, Function.update_of_ne eq] using h.writer_iff j
      · by_cases eq : j = i
        · subst eq
          simp [Lock.enter, kind]
        · simpa [Lock.enter, eq, Function.update_of_ne eq] using h.mem_readers_iff j

theorem leave (h : lock.Guards writes stage) (inside : stage i = .inside) :
    (lock.leave (writes i) i).Guards writes (Function.update stage i .past) := by
  cases kind : writes i with
  | true =>
      have held := (h.writer_iff i).2 ⟨kind, inside⟩
      have empty := h.alone (by simp [held])
      refine ⟨fun j => ?_, fun j => ?_, fun held => by simp [Lock.leave] at held⟩
      · by_cases eq : j = i
        · subst eq
          simp [Lock.leave]
        · have other := h.writer_iff j
          simp only [held, Option.some.injEq] at other
          simp only [Lock.leave, if_true, Function.update_of_ne eq]
          grind
      · by_cases eq : j = i
        · subst eq
          simp [Lock.leave, empty]
        · simpa [Lock.leave, Function.update_of_ne eq] using h.mem_readers_iff j
  | false =>
      refine ⟨fun j => ?_, fun j => ?_, fun held => ?_⟩
      · by_cases eq : j = i
        · subst eq
          have := h.writer_iff j
          simp_all [Lock.leave]
        · simpa [Lock.leave, Function.update_of_ne eq] using h.writer_iff j
      · by_cases eq : j = i
        · subst eq
          simp [Lock.leave]
        · simpa [Lock.leave, eq, Function.update_of_ne eq] using h.mem_readers_iff j
      · have empty := h.alone (by simpa [Lock.leave] using held)
        simp [Lock.leave, empty]

omit [DecidableEq ι] in
/-- While a reader is inside, no writer is. -/
theorem free_of_reader (h : lock.Guards writes stage) (reader : writes i = false)
    (inside : stage i = .inside) : lock.writer = none := by
  have shares := (h.mem_readers_iff i).2 ⟨reader, inside⟩
  by_contra held
  simp [h.alone held] at shares

omit [DecidableEq ι] in
/-- While a writer is inside, nobody else is. -/
theorem eq_of_inside (h : lock.Guards writes stage) (writer : writes i = true)
    (inside : stage i = .inside) {j : ι} (other : stage j = .inside) : j = i := by
  have held := (h.writer_iff i).2 ⟨writer, inside⟩
  cases kind : writes j with
  | true =>
      have also := (h.writer_iff j).2 ⟨kind, other⟩
      exact Option.some.inj (also.symm.trans held)
  | false =>
      have shares := (h.mem_readers_iff j).2 ⟨kind, other⟩
      have empty := h.alone (by simp [held])
      simp [empty] at shares

end Guards

end Lock

end CloudCanvas
