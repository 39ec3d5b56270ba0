import CloudCanvas.Proofs.Double.Decimal
import CloudCanvas.Proofs.Json.Numeral

/-!
# Numbers come back

The written form of a number is a numeral of the grammar, and the number that it
stands for is the one that was written.  An integer never comes back as a double, nor
a double as an integer.

The main statement is `Number.exists_numeral`.
-/

namespace CloudCanvas

namespace Numeral

/-- What the digits and the power of a numeral have in common with those of a decimal:
they are one number, and the numeral may have more zeros at its end. -/
def Denotes (n : Numeral) (digits : ℕ) (power : ℤ) : Prop :=
  ∃ k : ℕ, n.digitsOf = digits * 10 ^ k ∧ n.powerOf + k = power

/-- A numeral that is no integer is read as the double of its decimal. -/
theorem Denotes.ofNumeral? {n : Numeral} {digits : ℕ} {power : ℤ} (denotes : n.Denotes digits power)
    (point : n.integer? = none) :
    Number.ofNumeral? n = (Double.ofDecimal? n.negative digits power).map .double := by
  obtain ⟨k, hdigits, hpower⟩ := denotes
  rw [Number.ofNumeral?, point, Number.ofNumeralDouble?, hdigits, Double.ofDecimal?_shift, hpower]

end Numeral

namespace Double

/-- The digits that are written and the zeros that are not. -/
theorem toDigits_eq_significantDigits (digits : ℕ) :
    ∃ k, Nat.toDigits 10 digits = significantDigits digits ++ List.replicate k '0' := by
  let reversed := (Nat.toDigits 10 digits).reverse
  refine ⟨(reversed.takeWhile (· == '0')).length, ?_⟩
  have zeros : (reversed.takeWhile (· == '0')).reverse =
      List.replicate (reversed.takeWhile (· == '0')).length '0' := by
    refine List.eq_replicate_iff.2 ⟨List.length_reverse, fun c hc => ?_⟩
    have taken : c ∈ reversed.takeWhile (· == '0') := List.mem_reverse.1 hc
    simpa using List.mem_takeWhile_imp taken
  rw [← zeros, significantDigits, ← List.reverse_append, List.takeWhile_append_dropWhile,
    List.reverse_reverse]

/-- The digits of a number that is not zero are a row without a zero in front. -/
theorem digitRow_significantDigits {digits : ℕ} (h : digits ≠ 0) :
    DigitRow (significantDigits digits) ∧ (significantDigits digits).head? ≠ some '0' := by
  obtain ⟨k, written⟩ := toDigits_eq_significantDigits digits
  have row := digitRow_toDigits digits
  have nonempty : significantDigits digits ≠ [] := by
    intro none
    have value := digitsValue_append_zeros [] k
    rw [← none, ← written, digitsValue_toDigits, none] at value
    exact h (by simpa [digitsValue] using value)
  refine ⟨⟨nonempty, fun c hc => row.2 c ?_⟩, fun zero => ?_⟩
  · rw [written]
    exact List.mem_append_left _ hc
  · refine head?_toDigits h ?_
    rw [written, head?_append_of_ne_nil nonempty]
    exact zero

/-- A numeral that is a sign and a magnitude as they are written, is no integer and
denotes a decimal. -/
structure Writes (n : Numeral) (negative : Bool) (magnitude : List Char) (digits : ℕ)
    (power : ℤ) : Prop where
  valid : n.Valid
  negative_eq : n.negative = negative
  point : n.integer? = none
  chars_eq : n.chars = Numeral.signChars negative ++ magnitude
  denotes : n.Denotes digits power

variable {digits : List Char} {power : ℤ}

theorem digitRow_append {rest : List Char} (row : DigitRow digits)
    (h : ∀ c ∈ rest, c.isDigit = true) : DigitRow (digits ++ rest) :=
  ⟨List.append_ne_nil_of_left_ne_nil row.1 _, List.forall_mem_append.2 ⟨row.2, h⟩⟩

theorem isDigit_of_mem_zeros {k : ℕ} : ∀ c ∈ zeros k, c.isDigit = true := by
  intro c hc
  rw [(List.mem_replicate.1 hc).2]
  rfl

/-- The positional form of a number from one up. -/
private theorem writes_positional (negative : Bool) (row : DigitRow digits)
    (head : digits.head? ≠ some '0') (h : 0 ≤ power ∧ power ≤ 15) :
    ∃ n, Writes n negative (layout digits power) (digitsValue digits)
      (power + 1 - digits.length) := by
  let whole := power.toNat + 1
  let padded := digits ++ zeros (whole - digits.length)
  let rest := padded.drop whole
  have padded_row : DigitRow padded := digitRow_append row isDigit_of_mem_zeros
  have padded_length : padded.length = digits.length + (whole - digits.length) := by
    simp [padded, zeros]
  have take_ne_nil : padded.take whole ≠ [] := by
    rw [Ne, List.take_eq_nil_iff]
    exact not_or.2 ⟨by omega, padded_row.1⟩
  have take_head : (padded.take whole).head? ≠ some '0' := by
    rw [List.head?_take, if_neg (by omega), head?_append_of_ne_nil row.1]
    exact head
  let shown := if rest.isEmpty then ['0'] else rest
  have shown_row : DigitRow shown := by
    by_cases empty : rest = []
    · simp [shown, empty, DigitRow]
    · have : shown = rest := by simp [shown, empty]
      rw [this]
      exact ⟨empty, fun c hc => padded_row.2 c (List.mem_of_mem_drop hc)⟩
  refine ⟨⟨negative, padded.take whole, some shown, none⟩, ?_, rfl, rfl, ?_, ?_⟩
  · refine ⟨⟨take_ne_nil, fun c hc => padded_row.2 c (List.mem_of_mem_take hc)⟩,
      fun zero => absurd zero take_head, ?_, by simp⟩
    rintro _ ⟨⟩
    exact shown_row
  · rw [layout, if_pos h]
    simp [Numeral.chars, Numeral.fractionChars, Numeral.exponentChars, shown, rest, padded, whole]
  · by_cases long : whole < digits.length
    · -- All digits are there, some of them behind the point.
      have same : padded = digits := by simp [padded, zeros, Nat.sub_eq_zero_of_le long.le]
      have nonempty : rest ≠ [] := by
        rw [Ne, List.drop_eq_nil_iff, same]
        omega
      have shown_rest : shown = rest := by simp [shown, nonempty]
      have shown_eq : shown = digits.drop whole :=
        shown_rest.trans (congrArg (List.drop whole) same)
      refine ⟨0, ?_, ?_⟩
      · simp [Numeral.digitsOf, shown_eq, same]
      · simp [Numeral.powerOf, shown_eq]
        omega
    · -- Zeros fill up to the point, and one more stands behind it.
      have empty : rest = [] := by
        rw [List.drop_eq_nil_iff]
        omega
      have shown_eq : shown = ['0'] := by simp [shown, empty]
      have take_eq : padded.take whole = padded := List.take_of_length_le (by omega)
      refine ⟨whole - digits.length + 1, ?_, ?_⟩
      · change digitsValue (padded.take whole ++ shown) = _
        rw [take_eq, shown_eq, ← digitsValue_append_zeros, List.replicate_succ',
          ← List.append_assoc]
        rfl
      · simp [Numeral.powerOf, shown_eq]
        omega

/-- The positional form of a number below one. -/
private theorem writes_small (negative : Bool) (row : DigitRow digits)
    (h : -5 ≤ power ∧ power < 0) :
    ∃ n, Writes n negative (layout digits power) (digitsValue digits)
      (power + 1 - digits.length) := by
  refine ⟨⟨negative, ['0'], some (zeros ((-power).toNat - 1) ++ digits), none⟩, ?_, rfl, rfl,
    ?_, 0, ?_, ?_⟩
  · refine ⟨⟨by simp, by simp⟩, fun _ => rfl, ?_, by simp⟩
    rintro _ ⟨⟩
    exact ⟨List.append_ne_nil_of_right_ne_nil _ row.1,
      List.forall_mem_append.2 ⟨isDigit_of_mem_zeros, row.2⟩⟩
  · rw [layout, if_neg (by omega), if_pos h]
    simp [Numeral.chars, Numeral.fractionChars, Numeral.exponentChars]
  · have := digitsValue_zeros_append ((-power).toNat - 1 + 1) digits
    simpa [Numeral.digitsOf, zeros, List.replicate_succ] using this
  · simp [Numeral.powerOf, zeros]
    omega

/-- The scientific form. -/
private theorem writes_scientific (negative : Bool) (row : DigitRow digits)
    (head : digits.head? ≠ some '0') (h : ¬ (0 ≤ power ∧ power ≤ 15))
    (h' : ¬ (-5 ≤ power ∧ power < 0)) :
    ∃ n, Writes n negative (layout digits power) (digitsValue digits)
      (power + 1 - digits.length) := by
  obtain ⟨c, cs, rfl⟩ := List.exists_cons_of_ne_nil row.1
  have first : c ≠ '0' := fun zero => head (by rw [zero]; rfl)
  refine ⟨⟨negative, [c], if cs.isEmpty then none else some cs,
    some (decide (power < 0), Nat.toDigits 10 power.natAbs)⟩, ?_, rfl, ?_, ?_, 0, ?_, ?_⟩
  · refine ⟨⟨by simp, by simpa using row.2 c List.mem_cons_self⟩, fun zero => ?_, ?_, ?_⟩
    · exact absurd (Option.some.inj zero) first
    · intro tail htail
      by_cases empty : cs = []
      · simp [empty] at htail
      · obtain rfl : cs = tail := by simpa [empty] using htail
        exact ⟨empty, fun c hc => row.2 c (List.mem_cons_of_mem _ hc)⟩
    · rintro _ ⟨⟩
      exact digitRow_toDigits _
  · simp [Numeral.integer?]
  · rw [layout, if_neg h, if_neg h']
    by_cases empty : cs = [] <;>
      simp [Numeral.chars, Numeral.fractionChars, Numeral.exponentChars, fraction, empty]
  · by_cases empty : cs = [] <;> simp [Numeral.digitsOf, empty]
  · have length : ((if cs.isEmpty then none else some cs).getD []).length = cs.length := by
      by_cases empty : cs = [] <;> simp [empty]
    simp only [Numeral.powerOf, digitsValue_toDigits, decide_eq_true_eq, length,
      List.length_cons]
    split <;> omega

/-- **Each layout is that of a numeral which denotes the number laid out.** -/
theorem exists_writes_layout (negative : Bool) (row : DigitRow digits)
    (head : digits.head? ≠ some '0') (power : ℤ) :
    ∃ n, Writes n negative (layout digits power) (digitsValue digits)
      (power + 1 - digits.length) := by
  by_cases h : 0 ≤ power ∧ power ≤ 15
  · exact writes_positional negative row head h
  · by_cases h' : -5 ≤ power ∧ power < 0
    · exact writes_small negative row h'
    · exact writes_scientific negative row head h h'

/-- A magnitude that denotes a double is read as it behind the sign. -/
private theorem exists_numeral_of_writes {d : Double} {n : Numeral} {magnitude : List Char}
    {value : ℕ} (writes : Writes n d.negative magnitude value power)
    (read : ofDecimal? d.negative value power = some d)
    (text : d.text.toList = Numeral.signChars d.negative ++ magnitude) :
    ∃ n : Numeral, n.Valid ∧ n.chars = d.text.toList ∧
      Number.ofNumeral? n = some (.double d) := by
  refine ⟨n, writes.valid, writes.chars_eq.trans text.symm, ?_⟩
  rw [writes.denotes.ofNumeral? writes.point, writes.negative_eq, read, Option.map_some]

/-- **A double comes back from its written form.** -/
theorem exists_numeral (d : Double) : ∃ n : Numeral, n.Valid ∧ n.chars = d.text.toList ∧
    Number.ofNumeral? n = some (.double d) := by
  have sign : ∀ magnitude : List Char, (if d.negative then '-' :: magnitude else magnitude) =
      Numeral.signChars d.negative ++ magnitude := by
    intro magnitude
    cases d.negative <;> rfl
  by_cases zero : d.significand = 0
  · have writes : Writes ⟨d.negative, ['0'], some ['0'], none⟩ d.negative ['0', '.', '0'] 0 0 :=
      { valid := ⟨⟨by simp, by simp⟩, fun _ => rfl, by simp [DigitRow], by simp⟩
        negative_eq := rfl
        point := rfl
        chars_eq := rfl
        denotes := ⟨1, rfl, rfl⟩ }
    refine exists_numeral_of_writes writes ?_ ?_
    · rw [ofDecimal?, if_pos rfl, ← eq_zero_of_significand d zero]
    · rw [text, if_pos zero, String.toList_ofList, sign]
  · have nonzero := shortest_ne_zero d zero
    obtain ⟨k, written⟩ := toDigits_eq_significantDigits d.shortest.1
    obtain ⟨row, head⟩ := digitRow_significantDigits nonzero
    obtain ⟨n, writes⟩ := exists_writes_layout d.negative row head
      (d.shortest.2 + (decimalLength d.shortest.1 : ℤ) - 1)
    refine exists_numeral_of_writes writes ?_ ?_
    · have value : d.shortest.1 = digitsValue (significantDigits d.shortest.1) * 10 ^ k := by
        rw [← digitsValue_append_zeros, ← written, digitsValue_toDigits]
      have length : decimalLength d.shortest.1 = (significantDigits d.shortest.1).length + k := by
        rw [decimalLength, written, List.length_append, List.length_replicate]
      have power : d.shortest.2 + (decimalLength d.shortest.1 : ℤ) - 1 + 1 -
          (significantDigits d.shortest.1).length = d.shortest.2 + k := by
        omega
      rw [power, ← ofDecimal?_shift, ← value, ofDecimal?_shortest]
    · rw [text, if_neg zero, String.toList_ofList, sign]

end Double

namespace Number

/-- An integer comes back from its written form. -/
private theorem exists_numeral_integer (value : ℤ)
    (inRange : -0x8000000000000000 ≤ value ∧ value < 0x10000000000000000) :
    ∃ n : Numeral, n.Valid ∧ n.chars = (toString value).toList ∧
      Number.ofNumeral? n = some (.integer value inRange) := by
  have head : ∀ n : ℕ, (Nat.toDigits 10 n).head? = some '0' → Nat.toDigits 10 n = ['0'] := by
    intro n zero
    by_cases h : n = 0
    · rw [h, Nat.toDigits_zero]
    · exact absurd zero (head?_toDigits h)
  have valid : ∀ (negative : Bool) (n : ℕ),
      (⟨negative, Nat.toDigits 10 n, none, none⟩ : Numeral).Valid := fun negative n =>
    ⟨digitRow_toDigits n, head n, by simp, by simp⟩
  cases value with
  | ofNat n =>
      refine ⟨⟨false, Nat.toDigits 10 n, none, none⟩, valid false n, ?_, ?_⟩
      · have : (toString (Int.ofNat n)).toList = Nat.toDigits 10 n := Nat.toList_repr
        rw [this]
        simp [Numeral.chars, Numeral.signChars, Numeral.fractionChars, Numeral.exponentChars]
      · have read : (⟨false, Nat.toDigits 10 n, none, none⟩ : Numeral).integer? =
            some (Int.ofNat n) := by
          simp [Numeral.integer?]
        rw [Number.ofNumeral?, read]
        simp only [dif_pos inRange]
  | negSucc n =>
      refine ⟨⟨true, Nat.toDigits 10 (n + 1), none, none⟩, valid true (n + 1), ?_, ?_⟩
      · have : (toString (Int.negSucc n)).toList = '-' :: Nat.toDigits 10 (n + 1) := by
          rw [← Nat.toList_repr]
          simp [toString, Int.repr]
        rw [this]
        simp [Numeral.chars, Numeral.signChars, Numeral.fractionChars, Numeral.exponentChars]
      · have read : (⟨true, Nat.toDigits 10 (n + 1), none, none⟩ : Numeral).integer? =
            some (Int.negSucc n) := by
          simp [Numeral.integer?, Int.negSucc_eq]
        rw [Number.ofNumeral?, read]
        simp only [dif_pos inRange]

/-- **A number comes back from its written form**, as the integer or the double that it
was. -/
theorem exists_numeral (number : Number) : ∃ n : Numeral, n.Valid ∧
    n.chars = number.text.toList ∧ Number.ofNumeral? n = some number := by
  cases number with
  | integer value inRange => exact exists_numeral_integer value inRange
  | double value => exact value.exists_numeral

end Number

end CloudCanvas
