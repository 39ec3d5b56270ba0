/-!
# Finite binary64 numbers

A double is a sign, a significand of at most 53 bits and a power of two.  Each
number has one representation, the zeros one for each sign, so equality of data
is equality of numbers that also tells `-0` from `0`.

## Main definitions

* `Double`: the type.
* `roundHalfEven`: the integer nearest to a fraction, a half going to the even
  neighbour.
* `Double.ofRatio?`: the double nearest to a fraction.
-/

namespace CloudCanvas

/-- The number `± significand · 2 ^ exponent`, either with a full significand of
53 bits or at the least exponent. -/
structure Double where
  negative : Bool
  significand : Nat
  exponent : Int
  canonical : (significand < 0x10000000000000 ∧ exponent = -1074)
    ∨ (0x10000000000000 ≤ significand ∧ significand < 0x20000000000000
      ∧ -1074 ≤ exponent ∧ exponent ≤ 971)
deriving DecidableEq

/-- The integer nearest to `num / den`, the even one if two are equally near. -/
def roundHalfEven (num den : Nat) : Nat :=
  let floor := num / den
  let rest := num % den
  if 2 * rest < den then floor
  else if den < 2 * rest then floor + 1
  else floor + floor % 2

namespace Double

/-- Zero with a sign. -/
def zero (negative : Bool) : Double := ⟨negative, 0, -1074, .inl ⟨by decide, rfl⟩⟩

instance : Inhabited Double := ⟨zero false⟩

/-- The double of given parts, if they are those of a double. -/
def ofParts? (negative : Bool) (significand : Nat) (exponent : Int) : Option Double :=
  if h : (significand < 0x10000000000000 ∧ exponent = -1074)
      ∨ (0x10000000000000 ≤ significand ∧ significand < 0x20000000000000
        ∧ -1074 ≤ exponent ∧ exponent ≤ 971) then
    some ⟨negative, significand, exponent, h⟩
  else none

/-- The numerator and denominator of `num / den / 2 ^ exponent`. -/
def scaled (num den : Nat) (exponent : Int) : Nat × Nat :=
  (num * Nat.pow 2 (-exponent).toNat, den * Nat.pow 2 exponent.toNat)

/-- The power of two in whose units `num / den` takes 53 bits before the point,
but no less than the least exponent. -/
def exponentOf (num den : Nat) : Int :=
  let guess : Int := (num.log2 : Int) - den.log2 - 52
  let (n, d) := scaled num den guess
  let exact := if n < d * 0x10000000000000 then guess - 1 else guess
  max exact (-1074)

/-- The double nearest to `± num / den`, of two the one with the even
significand.  None if that lies beyond the greatest double. -/
def ofRatio? (negative : Bool) (num den : Nat) : Option Double :=
  let exponent := exponentOf num den
  let (n, d) := scaled num den exponent
  let significand := roundHalfEven n d
  if significand = 0x20000000000000 then ofParts? negative 0x10000000000000 (exponent + 1)
  else ofParts? negative significand exponent

/-- The magnitude of a double as a fraction. -/
def ratio (d : Double) : Nat × Nat :=
  (d.significand * Nat.pow 2 d.exponent.toNat, Nat.pow 2 (-d.exponent).toNat)

end Double

end CloudCanvas
