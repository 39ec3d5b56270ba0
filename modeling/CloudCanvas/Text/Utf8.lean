/-!
# Reading bytes as text

A strict reading refuses bytes that are not UTF-8.  A lenient reading puts one
replacement character in the place of each maximal part of an ill-formed
sequence: a lead byte together with the continuation bytes that could still have
completed it, or else a single byte.

## Main definitions

* `decodeUtf8?`: the strict reading.
* `decodeUtf8Lossy`: the lenient reading.
* `utf8Length`: how many bytes a text takes.
-/

namespace CloudCanvas

/-- The text that the bytes encode, if they are UTF-8. -/
def decodeUtf8? (bytes : ByteArray) : Option String :=
  String.fromUTF8? bytes

/-- The bytes that a text takes in UTF-8. -/
def utf8Length (s : String) : Nat :=
  s.utf8ByteSize

namespace Utf8

/-- The mark that stands for what could not be read. -/
def replacement : Char := '\uFFFD'

/-- How many bytes must follow a lead byte, and which of them may come first.
None for a byte that leads no character. -/
def lead? (b : UInt8) : Option (Nat × UInt8 × UInt8) :=
  if 0xC2 ≤ b && b ≤ 0xDF then some (1, 0x80, 0xBF)
  else if b == 0xE0 then some (2, 0xA0, 0xBF)
  else if b == 0xED then some (2, 0x80, 0x9F)
  else if 0xE1 ≤ b && b ≤ 0xEF then some (2, 0x80, 0xBF)
  else if b == 0xF0 then some (3, 0x90, 0xBF)
  else if 0xF1 ≤ b && b ≤ 0xF3 then some (3, 0x80, 0xBF)
  else if b == 0xF4 then some (3, 0x80, 0x8F)
  else none

/-- The bits that a lead byte contributes to a character of `following` more
bytes. -/
def leadBits (b : UInt8) (following : Nat) : Nat :=
  b.toNat % Nat.pow 2 (6 - following)

/-- A character in the course of being read: the bits so far, how many bytes are
still due and the range of the next one.  `none` between characters. -/
structure Pending where
  bits : Nat
  due : Nat
  low : UInt8
  high : UInt8

/-- Start reading at a byte that no character is waiting for. -/
def start (b : UInt8) : List Char × Option Pending :=
  if b < 0x80 then ([Char.ofNat b.toNat], none)
  else match lead? b with
    | some (due, low, high) => ([], some ⟨leadBits b due, due, low, high⟩)
    | none => ([replacement], none)

/-- Read one more byte: the characters that it completes and what is pending
after it. -/
def step (pending : Option Pending) (b : UInt8) : List Char × Option Pending :=
  match pending with
  | none => start b
  | some p =>
    if p.low ≤ b && b ≤ p.high then
      let bits := p.bits * 64 + b.toNat % 64
      if p.due ≤ 1 then ([Char.ofNat bits], none)
      else ([], some ⟨bits, p.due - 1, 0x80, 0xBF⟩)
    else
      let (found, next) := start b
      (replacement :: found, next)

/-- Read a sequence of bytes to its end. -/
def readLossy : Option Pending → List UInt8 → List Char
  | none, [] => []
  | some _, [] => [replacement]
  | pending, b :: rest =>
    let (found, next) := step pending b
    found ++ readLossy next rest

end Utf8

/-- The text that the bytes encode, with a replacement character for each part
that is not UTF-8. -/
def decodeUtf8Lossy (bytes : ByteArray) : String :=
  String.ofList (Utf8.readLossy none bytes.toList)

end CloudCanvas
