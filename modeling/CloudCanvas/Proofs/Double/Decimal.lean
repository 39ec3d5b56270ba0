import CloudCanvas.Double.Decimal
import CloudCanvas.Proofs.Double.Rounding

/-!
# Decimals and doubles

Reading a decimal depends on the number that it is and not on the zeros at its end,
and the decimal that is written for a double reads back as that double.

The main statements are `ofDecimal?_shift` and `ofDecimal?_shortest`.
-/

namespace CloudCanvas

theorem decimalLength_pos (n : ℕ) : 0 < decimalLength n :=
  Nat.length_toDigits_pos

theorem decimalLength_le_iff {n k : ℕ} (hk : 0 < k) : decimalLength n ≤ k ↔ n < 10 ^ k :=
  Nat.length_toDigits_le_iff (by decide) hk

/-- A zero behind a number makes it one digit longer. -/
theorem decimalLength_mul_ten {n : ℕ} (hn : 0 < n) :
    decimalLength (n * 10) = decimalLength n + 1 := by
  have digits : Nat.toDigits 10 n ++ Nat.toDigits 10 0 = Nat.toDigits 10 (10 * n + 0) :=
    Nat.toDigits_append_toDigits (by decide) hn (by decide)
  rw [Nat.add_zero, Nat.mul_comm] at digits
  rw [decimalLength, ← digits, List.length_append]
  rfl

theorem decimalLength_mul_pow {n : ℕ} (hn : 0 < n) (k : ℕ) :
    decimalLength (n * 10 ^ k) = decimalLength n + k := by
  induction k with
  | zero => simp
  | succ k ih =>
      rw [pow_succ, ← Nat.mul_assoc, decimalLength_mul_ten (by positivity), ih, Nat.add_assoc]

namespace Double

/-- The fraction that a decimal is read through is the number that the decimal is. -/
theorem decimal_ratio (digits : ℕ) (power : ℤ) :
    ((digits * Nat.pow 10 power.toNat : ℕ) : ℚ) / (Nat.pow 10 (-power).toNat : ℕ) =
      digits * (10 : ℚ) ^ power := by
  obtain ⟨n, rfl | rfl⟩ := Int.eq_nat_or_neg power
  · simp
  · simp
    ring

/-- **Reading does not see zeros at the end**: they count in the power of ten. -/
theorem ofDecimal?_shift (negative : Bool) (digits k : ℕ) (power : ℤ) :
    ofDecimal? negative (digits * 10 ^ k) power = ofDecimal? negative digits (power + k) := by
  rcases Nat.eq_zero_or_pos digits with rfl | hd
  · simp [ofDecimal?]
  have size : (decimalLength (digits * 10 ^ k) : ℤ) + power =
      decimalLength digits + (power + k) := by
    rw [decimalLength_mul_pow hd]
    push_cast
    ring
  have nonzero : digits * 10 ^ k ≠ 0 := by positivity
  have ratio : ofRatio? negative (digits * 10 ^ k * Nat.pow 10 power.toNat)
        (Nat.pow 10 (-power).toNat) =
      ofRatio? negative (digits * Nat.pow 10 (power + k).toNat)
        (Nat.pow 10 (-(power + k)).toNat) := by
    refine ofRatio?_congr negative ?_ ?_ ?_ ?_ ?_
    · exact Nat.mul_pos (Nat.pos_of_ne_zero nonzero) (Nat.pow_pos (by decide))
    · exact Nat.pow_pos (by decide)
    · exact Nat.mul_pos hd (Nat.pow_pos (by decide))
    · exact Nat.pow_pos (by decide)
    · rw [decimal_ratio, decimal_ratio, zpow_add₀ (by norm_num), zpow_natCast]
      push_cast
      ring
  simp only [ofDecimal?, size, if_neg nonzero, if_neg hd.ne', ratio]

/-- A zero is its sign. -/
theorem eq_zero_of_significand (d : Double) (h : d.significand = 0) : d = zero d.negative := by
  obtain ⟨negative, significand, exponent, canonical⟩ := d
  obtain rfl : significand = 0 := h
  obtain rfl : exponent = -1074 := by omega
  rfl

/-- The digits of a double are of the size that is read through a fraction. -/
private theorem size_exactDecimal (d : Double) (h : d.significand ≠ 0) :
    (decimalLength d.exactDecimal.1 : ℤ) + d.exactDecimal.2 ≤ 310 ∧
      -330 ≤ (decimalLength d.exactDecimal.1 : ℤ) + d.exactDecimal.2 := by
  have bounds : d.significand < 2 ^ 53 ∧ d.exponent.toNat ≤ 971 ∧ (-d.exponent).toNat ≤ 1074 := by
    have := d.canonical
    omega
  obtain ⟨small, large, least⟩ := bounds
  have power_le : 2 ^ d.exponent.toNat ≤ 2 ^ 971 := pow_le_pow_right₀ (by decide) large
  generalize hscale : (-d.exponent).toNat = scale at least
  have digits : d.exactDecimal.1 = d.significand * 2 ^ d.exponent.toNat * 5 ^ scale := by
    rw [← hscale]
    rfl
  have power : d.exactDecimal.2 = -(scale : ℤ) := by
    rw [← hscale]
    rfl
  rw [power]
  constructor
  · have : d.exactDecimal.1 < 10 ^ (scale + 310) := by
      calc
        d.exactDecimal.1 < 2 ^ 53 * 2 ^ 971 * 10 ^ scale := by
          rw [digits]
          exact Nat.mul_lt_mul_of_lt_of_le
            (Nat.mul_lt_mul_of_lt_of_le small power_le (pow_pos (by decide) _))
            (Nat.pow_le_pow_left (by decide) scale) (Nat.pow_pos (by decide))
        _ ≤ 10 ^ 310 * 10 ^ scale := Nat.mul_le_mul_right _ (by decide +kernel)
        _ = 10 ^ (scale + 310) := by rw [pow_add, Nat.mul_comm]
    have := (decimalLength_le_iff (by omega)).2 this
    omega
  · rcases Nat.lt_or_ge scale 332 with short | long
    · have := decimalLength_pos d.exactDecimal.1
      omega
    · have two_le : 2 ^ (scale - 331) ≤ 5 ^ 331 :=
        (pow_le_pow_right₀ (by decide) (by omega)).trans
          (show (2 : ℕ) ^ 743 ≤ 5 ^ 331 by decide +kernel)
      have : ¬ d.exactDecimal.1 < 10 ^ (scale - 331) := by
        rw [Nat.not_lt]
        calc
          10 ^ (scale - 331) = 2 ^ (scale - 331) * 5 ^ (scale - 331) := by
            rw [← Nat.mul_pow]
          _ ≤ 5 ^ 331 * 5 ^ (scale - 331) := Nat.mul_le_mul_right _ two_le
          _ = 5 ^ scale := by rw [← pow_add, Nat.add_sub_cancel' (by omega)]
          _ ≤ d.exactDecimal.1 := by
            rw [digits]
            exact Nat.le_mul_of_pos_left _
              (Nat.mul_pos (Nat.pos_of_ne_zero h) (Nat.pow_pos (by decide)))
      rw [← decimalLength_le_iff (by omega)] at this
      omega

/-- All digits of a double are read as that double. -/
theorem ofDecimal?_exactDecimal (d : Double) :
    ofDecimal? d.negative d.exactDecimal.1 d.exactDecimal.2 = some d := by
  by_cases h : d.significand = 0
  · have digits : d.exactDecimal.1 = 0 := by simp [exactDecimal, h]
    rw [ofDecimal?, if_pos digits, ← eq_zero_of_significand d h]
  have size := size_exactDecimal d h
  have pos : 0 < d.exactDecimal.1 :=
    Nat.mul_pos (ratio_pos d h).1 (Nat.pow_pos (by decide))
  have ratio := ratio_pos d h
  have number : (d.exactDecimal.1 : ℚ) * (10 : ℚ) ^ d.exactDecimal.2 =
      (d.ratio.1 : ℚ) / d.ratio.2 := by
    rw [ratio_eq]
    obtain ⟨n, hn | hn⟩ := Int.eq_nat_or_neg d.exponent
    · simp [exactDecimal, hn]
    · have ten : (10 : ℚ) ^ n = 2 ^ n * 5 ^ n := by rw [← mul_pow]; norm_num
      simp [exactDecimal, hn, ten]
      field_simp
  rw [ofDecimal?, if_neg pos.ne', if_neg (by omega), if_neg (by omega),
    ofRatio?_congr d.negative _ _ ratio.1 ratio.2 (by rw [decimal_ratio, number]),
    ofRatio?_ratio d h]
  · exact Nat.mul_pos pos (Nat.pow_pos (by decide))
  · exact Nat.pow_pos (by decide)

/-- **The decimal that is written for a double is read as that double.** -/
theorem ofDecimal?_shortest (d : Double) :
    ofDecimal? d.negative d.shortest.1 d.shortest.2 = some d := by
  rw [shortest]
  cases found : (List.range 17).findSome? (fun count => (d.candidates (count + 1)).head?) with
  | none => exact ofDecimal?_exactDecimal d
  | some decimal =>
      obtain ⟨count, -, head⟩ := List.exists_of_findSome?_eq_some found
      have candidate := List.mem_of_head? head
      simp only [candidates, List.mem_filter, beq_iff_eq] at candidate
      exact candidate.2

theorem shortest_ne_zero (d : Double) (h : d.significand ≠ 0) : d.shortest.1 ≠ 0 := by
  intro none
  have read := ofDecimal?_shortest d
  rw [ofDecimal?, if_pos none] at read
  exact h (by rw [← Option.some.inj read]; rfl)

end Double

end CloudCanvas
