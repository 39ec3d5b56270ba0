import CloudCanvas.Double

/-!
# Doubles in decimal notation

A decimal is a natural number times a power of ten.  Reading one gives the
nearest double.  Writing a double gives the shortest decimal that reads back as
it, and of several such the nearest.  Both are what a faithful library for JSON does
with numbers.  Writing is exact in any case.  A library may read numbers only to
its best effort, and then miss the nearest double by a unit in the last place when a
decimal has more digits or a larger power than it can handle exactly.

## Main definitions

* `Double.ofDecimal?`: reading.
* `Double.shortest`: the digits and the power of ten that are written.
* `Double.text`: the written form; positional for numbers from `1e-5` up to
  `1e16`, with a digit after the point, and scientific beyond.
-/

namespace CloudCanvas

/-- How many decimal digits a number has. -/
def decimalLength (n : Nat) : Nat :=
  (Nat.toDigits 10 n).length

namespace Double

/-- The double nearest to `± digits · 10 ^ exponent`, none if it is too large.
That reading is exact is an assumption about the library for JSON: what is said of texts
that are read back rests on it.  Powers far beyond the range are settled before they are
computed. -/
def ofDecimal? (negative : Bool) (digits : Nat) (exponent : Int) : Option Double :=
  let size := (decimalLength digits : Int) + exponent
  if digits = 0 then some (zero negative)
  else if 310 < size then none
  else if size < -330 then some (zero negative)
  else ofRatio? negative (digits * Nat.pow 10 exponent.toNat) (Nat.pow 10 (-exponent).toNat)

/-- The power of ten of the leading decimal digit of `num / den`. -/
def leadingPower (num den : Nat) : Int :=
  let guess : Int := (decimalLength num : Int) - decimalLength den
  if num * Nat.pow 10 (-guess).toNat < den * Nat.pow 10 guess.toNat then guess - 1 else guess

/-- The decimals with `count` digits on either side of a double that read back
as it, nearest first; the even one of two equally near. -/
def candidates (d : Double) (count : Nat) : List (Nat × Int) :=
  let (num, den) := d.ratio
  let power := leadingPower num den - (count : Int) + 1
  let n := num * Nat.pow 10 (-power).toNat
  let m := den * Nat.pow 10 power.toNat
  let below := n / m
  let nearest := roundHalfEven n m
  let other := if nearest = below then below + 1 else below
  [nearest, other].map (·, power) |>.filter
    (fun (digits, power) => ofDecimal? d.negative digits power == some d)

/-- All digits of a double: a fraction over a power of two is one over a power
of ten. -/
def exactDecimal (d : Double) : Nat × Int :=
  let scale := (-d.exponent).toNat
  (d.significand * Nat.pow 2 d.exponent.toNat * Nat.pow 5 scale, -(scale : Int))

/-- The shortest decimal that reads back as a double, and the nearest of those. -/
def shortest (d : Double) : Nat × Int :=
  ((List.range 17).findSome? (fun count => (d.candidates (count + 1)).head?)).getD
    d.exactDecimal

/-- A decimal's digits without the zeros at their end. -/
def significantDigits (digits : Nat) : List Char :=
  ((Nat.toDigits 10 digits).reverse.dropWhile (· == '0')).reverse

/-- A row of zeros. -/
def zeros (count : Nat) : List Char :=
  List.replicate count '0'

/-- The decimal point and what follows it, nothing if no digit follows. -/
def fraction (digits : List Char) : List Char :=
  if digits.isEmpty then [] else '.' :: digits

/-- The written form of digits whose first stands for `10 ^ power`: positional for
powers from -5 to 15, else scientific with a signed power. -/
def layout (digits : List Char) (power : Int) : List Char :=
  if 0 ≤ power ∧ power ≤ 15 then
    let whole := power.toNat + 1
    let padded := digits ++ zeros (whole - digits.length)
    let rest := padded.drop whole
    padded.take whole ++ '.' :: (if rest.isEmpty then ['0'] else rest)
  else if -5 ≤ power ∧ power < 0 then
    '0' :: '.' :: (zeros ((-power).toNat - 1) ++ digits)
  else
    let sign := if power < 0 then '-' else '+'
    digits.take 1 ++ fraction (digits.drop 1) ++ 'e' :: sign :: Nat.toDigits 10 power.natAbs

/-- The written form of a double. -/
def text (d : Double) : String :=
  let magnitude :=
    if d.significand = 0 then ['0', '.', '0']
    else
      let (digits, power) := d.shortest
      layout (significantDigits digits) (power + (decimalLength digits : Int) - 1)
  String.ofList (if d.negative then '-' :: magnitude else magnitude)

/-- The double nearest to an integer that 64 bits hold. -/
def ofInt (n : Int) : Double :=
  (ofRatio? (decide (n < 0)) n.natAbs 1).getD (zero false)

end Double

end CloudCanvas
