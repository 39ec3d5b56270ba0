import CloudCanvas.Text.Blank

/-!
# IPv4 prefixes

An address space is written `a.b.c.d/n`, blanks around it not counting.  It is
parted into ranges of 256 addresses, which are numbered from the start of the
space.

## Main definitions

* `Ipv4.parse?`: an address in four decimal parts.
* `AddressSpace`, `AddressSpace.parse?`: an address and a length.
* `carveSubnet`: the range with a number, if the space has one.
-/

namespace CloudCanvas

/-- The number that a row of decimal digits stands for, none for an empty row. -/
def decimal? (cs : List Char) : Option Nat :=
  if cs.isEmpty || !cs.all Char.isDigit then none
  else some (cs.foldl (fun n c => n * 10 + (c.toNat - '0'.toNat)) 0)

namespace Ipv4

/-- One part of an address: up to three digits below 256, without a zero in
front. -/
def octet? (cs : List Char) : Option Nat := do
  let n ← decimal? cs
  if n < 256 ∧ cs.length ≤ 3 ∧ (cs.length = 1 ∨ cs.head? ≠ some '0') then some n else none

/-- An address in four parts, as one number. -/
def parse? (cs : List Char) : Option Nat :=
  match cs.splitOn '.' with
  | [a, b, c, d] => do
    let a ← octet? a
    let b ← octet? b
    let c ← octet? c
    let d ← octet? d
    some (((a * 256 + b) * 256 + c) * 256 + d)
  | _ => none

/-- An address in four decimal parts. -/
def text (address : Nat) : String :=
  ".".intercalate ([16777216, 65536, 256, 1].map (fun unit => toString (address / unit % 256)))

end Ipv4

/-- The addresses that share their first bits with a base. -/
structure AddressSpace where
  base : Nat
  length : Nat
deriving DecidableEq

namespace AddressSpace

/-- A number of bits: digits, perhaps behind a plus sign, below `2 ^ 32`. -/
def length? (cs : List Char) : Option Nat := do
  let n ← decimal? (match cs with
    | '+' :: rest => rest
    | rest => rest)
  if n < 0x100000000 then some n else none

/-- The space that a text names. -/
def parse? (s : String) : Option AddressSpace :=
  let cs := (trimBlank s).toList
  let base := cs.takeWhile (· != '/')
  match cs.dropWhile (· != '/') with
  | '/' :: rest => do
    let base ← Ipv4.parse? base
    let length ← length? rest
    some ⟨base, length⟩
  | _ => none

/-- The first address of a space of at most 32 bits. -/
def first (space : AddressSpace) : Nat :=
  let size := Nat.pow 2 (32 - space.length)
  space.base / size * size

end AddressSpace

/-- The range of 256 addresses with a number in a space, none if the space is
smaller than that or has fewer of them. -/
def carveSubnet (space : String) (ordinal : Nat) : Option String := do
  let space ← AddressSpace.parse? space
  if space.length ≤ 24 ∧ ordinal < Nat.pow 2 (24 - space.length) then
    some (Ipv4.text (space.first + ordinal * 256) ++ "/24")
  else none

end CloudCanvas
