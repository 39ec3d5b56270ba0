import CloudCanvas.Double
import Mathlib.Data.Int.Log
import Mathlib.Data.Rat.Floor
import Mathlib.Tactic.FieldSimp
import Mathlib.Tactic.NormNum
import Mathlib.Tactic.Positivity
import Mathlib.Tactic.Ring

/-!
# Rounding to a double

The double nearest to a fraction depends on the number that the fraction is and not
on how it is written, and the fraction that a double is rounds to that double.

The main statements are `exponentOf_eq_log`, `ofRatio?_congr` and `ofRatio?_ratio`.
-/

namespace CloudCanvas

/-- Rounding does not see a common factor. -/
theorem roundHalfEven_mul_left {c : ℕ} (hc : 0 < c) (num den : ℕ) :
    roundHalfEven (c * num) (c * den) = roundHalfEven num den := by
  have below : 2 * (c * (num % den)) < c * den ↔ 2 * (num % den) < den := by
    rw [Nat.mul_left_comm]
    exact Nat.mul_lt_mul_left hc
  have above : c * den < 2 * (c * (num % den)) ↔ den < 2 * (num % den) := by
    rw [Nat.mul_left_comm]
    exact Nat.mul_lt_mul_left hc
  simp only [roundHalfEven, Nat.mul_div_mul_left _ _ hc, Nat.mul_mod_mul_left, below, above]

theorem roundHalfEven_congr {num den num' den' : ℕ} (hd : 0 < den) (hd' : 0 < den')
    (h : (num : ℚ) / den = num' / den') : roundHalfEven num den = roundHalfEven num' den' := by
  have cross : num * den' = num' * den := by
    have hd : (den : ℚ) ≠ 0 := by positivity
    have hd' : (den' : ℚ) ≠ 0 := by positivity
    exact_mod_cast (div_eq_div_iff hd hd').1 h
  calc
    roundHalfEven num den = roundHalfEven (den' * num) (den' * den) :=
      (roundHalfEven_mul_left hd' _ _).symm
    _ = roundHalfEven (den * num') (den * den') := by
      rw [Nat.mul_comm den' num, cross, Nat.mul_comm num' den, Nat.mul_comm den' den]
    _ = roundHalfEven num' den' := roundHalfEven_mul_left hd _ _

/-- An integer is rounded to itself. -/
theorem roundHalfEven_of_eq {num den n : ℕ} (hd : 0 < den) (h : (num : ℚ) / den = n) :
    roundHalfEven num den = n := by
  have whole : roundHalfEven num den = roundHalfEven n 1 :=
    roundHalfEven_congr hd Nat.one_pos (by simpa using h)
  rw [whole]
  simp [roundHalfEven, Nat.mod_one]

namespace Double

variable {num den num' den' : ℕ}

/-- Scaling a fraction is division by a power of two. -/
theorem scaled_ratio (num den : ℕ) (exponent : ℤ) :
    ((scaled num den exponent).1 : ℚ) / (scaled num den exponent).2 =
      num / den / (2 : ℚ) ^ exponent := by
  obtain ⟨n, rfl | rfl⟩ := Int.eq_nat_or_neg exponent
  · simp [scaled, div_div]
  · simp [scaled]
    ring

theorem scaled_pos (hd : 0 < den) (exponent : ℤ) : 0 < (scaled num den exponent).2 :=
  Nat.mul_pos hd (Nat.pow_pos (by decide))

/-- Whether a scaled fraction takes fewer than 53 bits. -/
private theorem scaled_lt_iff (hn : 0 < num) (hd : 0 < den) (guess : ℤ) :
    (scaled num den guess).1 < (scaled num den guess).2 * 0x10000000000000 ↔
      Int.log 2 ((num : ℚ) / den) < guess + 52 := by
  have hq : (0 : ℚ) < num / den := div_pos (Nat.cast_pos.2 hn) (Nat.cast_pos.2 hd)
  have hs : (0 : ℚ) < (scaled num den guess).2 := by exact_mod_cast scaled_pos hd guess
  rw [← Int.lt_zpow_iff_log_lt (by decide) hq, zpow_add₀ (by norm_num)]
  have hp : (0 : ℚ) < (2 : ℚ) ^ guess := zpow_pos (by norm_num) _
  calc
    _ ↔ ((scaled num den guess).1 : ℚ) < (scaled num den guess).2 * 0x10000000000000 := by
      exact_mod_cast Iff.rfl
    _ ↔ ((scaled num den guess).1 : ℚ) / (scaled num den guess).2 < 0x10000000000000 := by
      rw [div_lt_iff₀ hs, mul_comm]
    _ ↔ (num : ℚ) / den < (2 : ℚ) ^ guess * 0x10000000000000 := by
      rw [scaled_ratio, div_lt_iff₀ hp, mul_comm]
    _ ↔ _ := by norm_num

/-- The lengths of numerator and denominator give the exponent up to one. -/
private theorem log_bounds (hn : 0 < num) (hd : 0 < den) :
    (num.log2 : ℤ) - den.log2 - 1 ≤ Int.log 2 ((num : ℚ) / den) ∧
      Int.log 2 ((num : ℚ) / den) < (num.log2 : ℤ) - den.log2 + 1 := by
  have hq : (0 : ℚ) < num / den := div_pos (Nat.cast_pos.2 hn) (Nat.cast_pos.2 hd)
  have hd' : (0 : ℚ) < den := by exact_mod_cast hd
  have numLow : (2 : ℚ) ^ num.log2 ≤ num := by exact_mod_cast Nat.log2_self_le hn.ne'
  have numHigh : (num : ℚ) < 2 ^ (num.log2 + 1) := by exact_mod_cast Nat.lt_log2_self
  have denLow : (2 : ℚ) ^ den.log2 ≤ den := by exact_mod_cast Nat.log2_self_le hd.ne'
  have denHigh : (den : ℚ) < 2 ^ (den.log2 + 1) := by exact_mod_cast Nat.lt_log2_self
  constructor
  · refine (Int.zpow_le_iff_le_log (by decide) hq).1 ?_
    rw [Nat.cast_ofNat, sub_sub, zpow_sub₀ (by norm_num), zpow_natCast, ← Nat.cast_succ,
      zpow_natCast, div_le_div_iff₀ (by positivity) hd']
    exact mul_le_mul numLow denHigh.le hd'.le (by positivity)
  · refine (Int.lt_zpow_iff_log_lt (by decide) hq).1 ?_
    rw [Nat.cast_ofNat, sub_add_eq_add_sub, zpow_sub₀ (by norm_num), zpow_natCast,
      ← Nat.cast_succ, zpow_natCast, div_lt_div_iff₀ hd' (by positivity)]
    exact mul_lt_mul numHigh denLow (by positivity) (by positivity)

/-- **The exponent of a fraction**: the one in whose units the fraction has 53 bits, but
no less than the least. -/
theorem exponentOf_eq_log (hn : 0 < num) (hd : 0 < den) :
    exponentOf num den = max (Int.log 2 ((num : ℚ) / den) - 52) (-1074) := by
  have bounds := log_bounds hn hd
  simp only [exponentOf, scaled_lt_iff hn hd]
  congr 1
  split <;> omega

/-- **Rounding depends on the number alone.** -/
theorem ofRatio?_congr (negative : Bool) (hn : 0 < num) (hd : 0 < den) (hn' : 0 < num')
    (hd' : 0 < den') (h : (num : ℚ) / den = num' / den') :
    ofRatio? negative num den = ofRatio? negative num' den' := by
  have exponent : exponentOf num den = exponentOf num' den' := by
    rw [exponentOf_eq_log hn hd, exponentOf_eq_log hn' hd', h]
  have significand : ∀ e, roundHalfEven (scaled num den e).1 (scaled num den e).2 =
      roundHalfEven (scaled num' den' e).1 (scaled num' den' e).2 := fun e =>
    roundHalfEven_congr (scaled_pos hd e) (scaled_pos hd' e)
      (by rw [scaled_ratio, scaled_ratio, h])
  simp only [ofRatio?, exponent, significand]

/-- The number that a double is. -/
theorem ratio_eq (d : Double) :
    (d.ratio.1 : ℚ) / d.ratio.2 = d.significand * (2 : ℚ) ^ d.exponent := by
  obtain ⟨n, h | h⟩ := Int.eq_nat_or_neg d.exponent
  · simp [ratio, h]
  · simp [ratio, h]
    ring

theorem ratio_pos (d : Double) (h : d.significand ≠ 0) : 0 < d.ratio.1 ∧ 0 < d.ratio.2 :=
  ⟨Nat.mul_pos (Nat.pos_of_ne_zero h) (Nat.pow_pos (by decide)), Nat.pow_pos (by decide)⟩

/-- The units of a double are those that its number is rounded to. -/
private theorem exponentOf_ratio (d : Double) (h : d.significand ≠ 0) :
    exponentOf d.ratio.1 d.ratio.2 = d.exponent := by
  have pos := ratio_pos d h
  have hs : (0 : ℚ) < d.significand := by exact_mod_cast Nat.pos_of_ne_zero h
  have hu : (0 : ℚ) < (2 : ℚ) ^ d.exponent := zpow_pos (by norm_num) _
  have hq : (0 : ℚ) < d.significand * (2 : ℚ) ^ d.exponent := mul_pos hs hu
  have le_log : ∀ k : ℕ, (2 : ℕ) ^ k ≤ d.significand →
      d.exponent + k ≤ Int.log 2 (d.significand * (2 : ℚ) ^ d.exponent) := by
    intro k hk
    rw [← Int.zpow_le_iff_le_log (by decide) hq, Nat.cast_ofNat, zpow_add₀ (by norm_num),
      mul_comm, zpow_natCast]
    have hk : (2 : ℚ) ^ k ≤ d.significand := by exact_mod_cast hk
    exact mul_le_mul_of_nonneg_right hk hu.le
  have log_lt : ∀ k : ℕ, d.significand < (2 : ℕ) ^ k →
      Int.log 2 (d.significand * (2 : ℚ) ^ d.exponent) < d.exponent + k := by
    intro k hk
    rw [← Int.lt_zpow_iff_log_lt (by decide) hq, Nat.cast_ofNat, zpow_add₀ (by norm_num),
      zpow_natCast, mul_comm]
    have hk : (d.significand : ℚ) < 2 ^ k := by exact_mod_cast hk
    exact mul_lt_mul_of_pos_left hk hu
  rw [exponentOf_eq_log pos.1 pos.2, ratio_eq]
  rcases d.canonical with ⟨small, least⟩ | ⟨full, small, least, -⟩
  · have := log_lt 52 small
    omega
  · have := le_log 52 full
    have := log_lt 53 small
    omega

/-- **The number that a double is rounds to that double.** -/
theorem ofRatio?_ratio (d : Double) (h : d.significand ≠ 0) :
    ofRatio? d.negative d.ratio.1 d.ratio.2 = some d := by
  have pos := ratio_pos d h
  have exact : roundHalfEven (scaled d.ratio.1 d.ratio.2 d.exponent).1
      (scaled d.ratio.1 d.ratio.2 d.exponent).2 = d.significand := by
    refine roundHalfEven_of_eq (scaled_pos pos.2 _) ?_
    rw [scaled_ratio, ratio_eq, mul_div_assoc, div_self (zpow_ne_zero _ (by norm_num)), mul_one]
  have notFull : d.significand ≠ 0x20000000000000 := by
    have := d.canonical
    omega
  simp only [ofRatio?, exponentOf_ratio d h, exact, if_neg notFull, ofParts?, d.canonical,
    dif_pos]

end Double

end CloudCanvas
