import CloudCanvas.Json.Token
import Mathlib.Data.List.TakeWhile
import Mathlib.Tactic.Ring

/-!
# Written numbers

A numeral is written by its parts one behind the other, and reading what is written
gives the parts back.

## Main definitions

* `DigitRow`: one digit or more.
* `Numeral.Valid`: the parts follow the grammar of JSON.
* `Numeral.chars`: the written form.
-/

namespace CloudCanvas

/-- One digit or more. -/
def DigitRow (digits : List Char) : Prop :=
  digits ≠ [] ∧ ∀ c ∈ digits, c.isDigit = true

theorem digitRow_toDigits (n : ℕ) : DigitRow (Nat.toDigits 10 n) :=
  ⟨Nat.toDigits_ne_nil, fun _ h => Nat.isDigit_of_mem_toDigits (by decide) (by decide) h⟩

theorem head?_append_of_ne_nil {digits rest : List Char} (h : digits ≠ []) :
    (digits ++ rest).head? = digits.head? := by
  obtain ⟨c, cs, rfl⟩ := List.exists_cons_of_ne_nil h
  rfl

/-- Only zero is written with a zero in front. -/
theorem head?_toDigits {n : ℕ} (h : n ≠ 0) : (Nat.toDigits 10 n).head? ≠ some '0' := by
  induction n using Nat.strongRecOn with
  | ind n ih =>
      rcases Nat.lt_or_ge n 10 with small | large
      · rw [Nat.toDigits_of_lt_base small]
        have : ∀ m < 10, m ≠ 0 → Nat.digitChar m ≠ '0' := by decide
        simpa using this n small h
      · rw [Nat.toDigits_of_base_le (by decide) large,
          head?_append_of_ne_nil Nat.toDigits_ne_nil]
        exact ih (n / 10) (by omega) (by omega)

theorem digitsValue_eq (digits : List Char) :
    digitsValue digits = Nat.ofDigitChars 10 digits 0 := by
  simp only [digitsValue, Nat.ofDigitChars_eq_foldl, Nat.mul_comm]

@[simp] theorem digitsValue_toDigits (n : ℕ) : digitsValue (Nat.toDigits 10 n) = n := by
  rw [digitsValue_eq, Nat.ofDigitChars_ten_toDigits]

theorem digitsValue_append_zeros (digits : List Char) (k : ℕ) :
    digitsValue (digits ++ List.replicate k '0') = digitsValue digits * 10 ^ k := by
  rw [digitsValue_eq, digitsValue_eq, Nat.ofDigitChars_append, Nat.ofDigitChars_replicate_zero,
    Nat.mul_comm]

theorem digitsValue_zeros_append (k : ℕ) (digits : List Char) :
    digitsValue (List.replicate k '0' ++ digits) = digitsValue digits := by
  rw [digitsValue_eq, digitsValue_eq, Nat.ofDigitChars_append, Nat.ofDigitChars_replicate_zero,
    Nat.mul_zero]

namespace Numeral

/-- The parts follow the grammar: rows of digits, of which the first starts with a
zero only if it is one. -/
structure Valid (n : Numeral) : Prop where
  whole : DigitRow n.whole
  whole_zero : n.whole.head? = some '0' → n.whole = ['0']
  fraction : ∀ digits ∈ n.fraction, DigitRow digits
  exponent : ∀ part ∈ n.exponent, DigitRow part.2

/-- The sign of a numeral, written only if it is negative. -/
def signChars (negative : Bool) : List Char :=
  if negative then ['-'] else []

/-- The fraction as it is written. -/
def fractionChars : Option (List Char) → List Char
  | none => []
  | some digits => '.' :: digits

/-- The exponent as it is written, always with its sign. -/
def exponentChars : Option (Bool × List Char) → List Char
  | none => []
  | some (negative, digits) => 'e' :: (if negative then '-' else '+') :: digits

/-- The written form of a numeral. -/
def chars (n : Numeral) : List Char :=
  signChars n.negative ++ (n.whole ++ (fractionChars n.fraction ++ exponentChars n.exponent))

/-- A row of digits is read up to the first other character. -/
private theorem digits?_append {digits : List Char} (row : DigitRow digits) (rest : List Char)
    (stop : ∀ c ∈ rest.head?, c.isDigit = false) :
    digits? (digits ++ rest) = some (digits, rest) := by
  have taken : rest.takeWhile Char.isDigit = [] ∧ rest.dropWhile Char.isDigit = rest := by
    cases rest with
    | nil => exact ⟨rfl, rfl⟩
    | cons c cs => simp [stop c rfl]
  rw [digits?, List.takeWhile_append_of_pos row.2, List.dropWhile_append_of_pos row.2, taken.1,
    taken.2, List.append_nil]
  simp [row.1]

private theorem digits?_row {digits : List Char} (row : DigitRow digits) :
    digits? digits = some (digits, []) := by
  have := digits?_append row [] (by simp)
  rwa [List.append_nil] at this

private theorem exponent?_chars (exponent : Option (Bool × List Char))
    (row : ∀ part ∈ exponent, DigitRow part.2) :
    exponent? (exponentChars exponent) = some (exponent, []) := by
  rcases exponent with - | ⟨negative, digits⟩
  · rfl
  · have read := digits?_row (row _ rfl)
    cases negative <;> simp only at read <;> simp [exponentChars, exponent?, sign, read]

private theorem fraction?_chars {fraction : Option (List Char)}
    (exponent : Option (Bool × List Char)) (row : ∀ digits ∈ fraction, DigitRow digits) :
    fraction? (fractionChars fraction ++ exponentChars exponent) =
      some (fraction, exponentChars exponent) := by
  cases fraction with
  | none =>
      rcases exponent with - | ⟨negative, digits⟩
      · rfl
      · rfl
  | some digits =>
      have read := digits?_append (row _ rfl) (exponentChars exponent) (by
        rcases exponent with - | part <;> simp [exponentChars])
      simp [fractionChars, fraction?, read]

private theorem whole?_chars {n : Numeral} (valid : n.Valid) :
    whole? (n.whole ++ (fractionChars n.fraction ++ exponentChars n.exponent)) =
      some (n.whole, fractionChars n.fraction ++ exponentChars n.exponent) := by
  have read := digits?_append valid.whole
    (fractionChars n.fraction ++ exponentChars n.exponent) (by
      rcases n.fraction with - | digits
      · rcases n.exponent with - | part <;> simp [fractionChars, exponentChars]
      · simp [fractionChars])
  have zero : ¬ (n.whole.head? = some '0' ∧ n.whole ≠ ['0']) := fun h =>
    h.2 (valid.whole_zero h.1)
  simp [whole?, read, zero]

/-- **Reading what is written gives the numeral back.** -/
theorem read?_chars {n : Numeral} (valid : n.Valid) : read? n.chars = some n := by
  have rest : whole? (n.whole ++ (fractionChars n.fraction ++ exponentChars n.exponent)) = _ :=
    whole?_chars valid
  have fraction := fraction?_chars n.exponent valid.fraction
  have exponent := exponent?_chars n.exponent valid.exponent
  have noSign : ∀ c ∈ n.whole.head?, c ≠ '-' := by
    rintro c hc rfl
    exact absurd (valid.whole.2 _ (List.mem_of_head? hc)) (by decide)
  obtain ⟨negative, whole, fractionPart, exponentPart⟩ := n
  cases negative with
  | true => simp [chars, signChars, read?, rest, fraction, exponent]
  | false =>
      cases whole with
      | nil => exact absurd rfl valid.whole.1
      | cons c cs =>
          have := noSign c rfl
          simp only [List.cons_append] at rest
          simp [chars, signChars, read?, rest, fraction, exponent, this]

private theorem isNumeric_of_isDigit {c : Char} (h : c.isDigit = true) :
    Scan.isNumeric c = true := by
  simp [Scan.isNumeric, h]

/-- A numeral is written with characters of numbers only. -/
theorem isNumeric_of_mem_chars {n : Numeral} (valid : n.Valid) :
    ∀ c ∈ n.chars, Scan.isNumeric c = true := by
  have row : ∀ {digits : List Char}, DigitRow digits → ∀ c ∈ digits, Scan.isNumeric c = true :=
    fun row c hc => isNumeric_of_isDigit (row.2 c hc)
  have sign : ∀ c ∈ signChars n.negative, Scan.isNumeric c = true := by
    cases n.negative <;> simp [signChars, Scan.isNumeric]
  have fraction : ∀ c ∈ fractionChars n.fraction, Scan.isNumeric c = true := by
    cases h : n.fraction with
    | none => simp [fractionChars]
    | some digits =>
        rw [fractionChars, List.forall_mem_cons]
        exact ⟨by decide, row (valid.fraction _ h)⟩
  have exponent : ∀ c ∈ exponentChars n.exponent, Scan.isNumeric c = true := by
    cases h : n.exponent with
    | none => simp [exponentChars]
    | some part =>
        obtain ⟨negative, digits⟩ := part
        rw [exponentChars, List.forall_mem_cons, List.forall_mem_cons]
        exact ⟨by decide, by cases negative <;> decide, row (valid.exponent _ h)⟩
  simp only [chars, List.forall_mem_append]
  exact ⟨sign, row valid.whole, fraction, exponent⟩

/-- A numeral starts with a digit or with the minus sign. -/
theorem exists_chars_eq_cons {n : Numeral} (valid : n.Valid) :
    ∃ c cs, n.chars = c :: cs ∧ (c.isDigit = true ∨ c = '-') := by
  cases h : n.negative with
  | true => exact ⟨'-', _, by rw [chars, h]; rfl, .inr rfl⟩
  | false =>
      obtain ⟨c, cs, hw⟩ := List.exists_cons_of_ne_nil valid.whole.1
      refine ⟨c, _, by rw [chars, h, hw]; rfl, .inl (valid.whole.2 c ?_)⟩
      rw [hw]
      exact List.mem_cons_self

end Numeral

end CloudCanvas
