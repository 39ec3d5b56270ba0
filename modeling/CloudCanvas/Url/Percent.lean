import CloudCanvas.Text.Utf8

/-!
# Percent-encoding

A character that cannot stand in some part of an address is written as its bytes,
each as a percent sign and two hexadecimal digits in upper case.  Control
characters and characters beyond ASCII are always written so.

## Main definitions

* `Percent.inFragment`, `Percent.inPath`, `Percent.inSegment`, `Percent.inQuery`,
  `Percent.inUserinfo`: what is encoded in which part.
* `Percent.encode`, `Percent.decode`.
-/

namespace CloudCanvas

namespace Percent

/-- What is encoded everywhere. -/
def always (c : Char) : Bool :=
  c.toNat < 0x20 || 0x7F ≤ c.toNat

/-- What is encoded in a fragment. -/
def inFragment (c : Char) : Bool :=
  always c || [' ', '"', '<', '>', '`'].contains c

/-- What is encoded in a path that is being read. -/
def inPath (c : Char) : Bool :=
  inFragment c || ['#', '?', '\x7b', '\x7d'].contains c

/-- What is encoded in a segment that is added to a path. -/
def inSegment (special : Bool) (c : Char) : Bool :=
  inPath c || c == '/' || c == '%' || (special && c == '\\')

/-- What is encoded in a query. -/
def inQuery (special : Bool) (c : Char) : Bool :=
  always c || [' ', '"', '#', '<', '>'].contains c || (special && c == '\'')

/-- What is encoded in a user name or password. -/
def inUserinfo (c : Char) : Bool :=
  inPath c || ['/', ':', ';', '=', '@', '[', '\\', ']', '^', '|'].contains c

/-- A hexadecimal digit in upper case. -/
def digit (n : Nat) : Char :=
  (Nat.digitChar (n % 16)).toUpper

/-- A byte in encoded form. -/
def encodeByte (b : UInt8) : List Char :=
  ['%', digit (b.toNat / 16), digit b.toNat]

/-- A character in encoded form. -/
def encodeChar (c : Char) : List Char :=
  (String.utf8EncodeChar c).flatMap encodeByte

/-- A text in which the characters of a set are encoded. -/
def encode (set : Char → Bool) (cs : List Char) : List Char :=
  cs.flatMap (fun c => if set c then encodeChar c else [c])

/-- The value of a hexadecimal digit. -/
def hexValue? (c : Char) : Option Nat :=
  if c.isDigit then some (c.toNat - '0'.toNat)
  else if 'a' ≤ c ∧ c ≤ 'f' then some (c.toNat - 'a'.toNat + 10)
  else if 'A' ≤ c ∧ c ≤ 'F' then some (c.toNat - 'A'.toNat + 10)
  else none

/-- The bytes of a text of which encoded bytes are decoded. -/
def decode : List Char → List UInt8
  | [] => []
  | '%' :: a :: b :: rest =>
    match hexValue? a, hexValue? b with
    | some high, some low => UInt8.ofNat (high * 16 + low) :: decode rest
    | _, _ => '%'.toNat.toUInt8 :: decode (a :: b :: rest)
  | c :: rest => String.utf8EncodeChar c ++ decode rest

end Percent

end CloudCanvas
