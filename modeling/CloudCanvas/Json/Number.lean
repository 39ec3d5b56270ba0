import CloudCanvas.Double.Decimal

/-!
# Numbers of a JSON text

A numeral without a point and an exponent that 64 bits can hold, signed or
unsigned, is an integer.  Every other numeral is the nearest double; so is `-0`,
which no integer tells from `0`.

## Main definitions

* `Number`: an integer or a double.
* `Numeral`: the parts of a written number, and `Numeral.read?`, the grammar.
* `Number.text`: the written form.
-/

namespace CloudCanvas

/-- An integer of 64 bits or a double. -/
inductive Number where
  | integer (value : Int) (inRange : -0x8000000000000000 ≤ value ∧ value < 0x10000000000000000)
  | double (value : Double)
deriving DecidableEq

/-- The parts of a written number. -/
structure Numeral where
  negative : Bool
  whole : List Char
  fraction : Option (List Char)
  exponent : Option (Bool × List Char)
deriving DecidableEq

/-- The number that a row of digits stands for. -/
def digitsValue (digits : List Char) : Nat :=
  digits.foldl (fun value c => value * 10 + (c.toNat - '0'.toNat)) 0

namespace Numeral

/-- A non-empty row of digits at the start of a text, and the rest. -/
def digits? (cs : List Char) : Option (List Char × List Char) :=
  let digits := cs.takeWhile Char.isDigit
  if digits.isEmpty then none else some (digits, cs.dropWhile Char.isDigit)

/-- A sign at the start of a text, and the rest. -/
def sign (cs : List Char) : Bool × List Char :=
  match cs with
  | '-' :: rest => (true, rest)
  | '+' :: rest => (false, rest)
  | rest => (false, rest)

/-- The whole part: digits of which the first is `0` only if it is the only
one. -/
def whole? (cs : List Char) : Option (List Char × List Char) := do
  let (digits, rest) ← digits? cs
  if digits.head? = some '0' ∧ digits ≠ ['0'] then none else some (digits, rest)

/-- The fraction: nothing, or a point and digits. -/
def fraction? (cs : List Char) : Option (Option (List Char) × List Char) :=
  match cs with
  | '.' :: rest => do
    let (digits, rest) ← digits? rest
    some (some digits, rest)
  | rest => some (none, rest)

/-- The exponent: nothing, or a letter, perhaps a sign, and digits. -/
def exponent? (cs : List Char) : Option (Option (Bool × List Char) × List Char) :=
  match cs with
  | 'e' :: rest | 'E' :: rest => do
    let (negative, rest) := sign rest
    let (digits, rest) ← digits? rest
    some (some (negative, digits), rest)
  | rest => some (none, rest)

/-- The parts of a text that is a number and nothing else. -/
def read? (cs : List Char) : Option Numeral := do
  let (negative, rest) := match cs with
    | '-' :: rest => (true, rest)
    | rest => (false, rest)
  let (whole, rest) ← whole? rest
  let (fraction, rest) ← fraction? rest
  let (exponent, rest) ← exponent? rest
  if rest.isEmpty then some ⟨negative, whole, fraction, exponent⟩ else none

/-- The digits of a numeral as one natural number. -/
def digitsOf (n : Numeral) : Nat :=
  digitsValue (n.whole ++ n.fraction.getD [])

/-- The power of ten that the last digit of a numeral stands for. -/
def powerOf (n : Numeral) : Int :=
  let exponent : Int := match n.exponent with
    | none => 0
    | some (negative, digits) =>
      if negative then -(digitsValue digits : Int) else digitsValue digits
  exponent - (n.fraction.getD []).length

/-- The integer that a numeral is written as. -/
def integer? (n : Numeral) : Option Int :=
  if n.fraction.isSome || n.exponent.isSome then none
  else
    let value := digitsValue n.whole
    if n.negative then (if value = 0 then none else some (-(value : Int))) else some value

end Numeral

namespace Number

/-- The double nearest to a numeral, none if it is too large. -/
def ofNumeralDouble? (n : Numeral) : Option Number :=
  (Double.ofDecimal? n.negative n.digitsOf n.powerOf).map .double

/-- The number that a numeral stands for, none if no double is large enough. -/
def ofNumeral? (n : Numeral) : Option Number :=
  match n.integer? with
  | some value =>
    if h : -0x8000000000000000 ≤ value ∧ value < 0x10000000000000000 then
      some (.integer value h)
    else ofNumeralDouble? n
  | none => ofNumeralDouble? n

/-- The written form of a number. -/
def text : Number → String
  | .integer value _ => toString value
  | .double value => value.text

/-- The double nearest to a number. -/
def toDouble : Number → Double
  | .integer value _ => .ofInt value
  | .double value => value

/-- A natural number of 64 bits. -/
def ofNat (n : Nat) (h : n < 0x10000000000000000) : Number :=
  .integer n ⟨by omega, by omega⟩

end Number

end CloudCanvas
