import CloudCanvas.Network.Prefix
import CloudCanvas.Url.Percent

/-!
# Hosts of an address

A host is a name in lower case, four parts of an IPv4 address or eight of an IPv6
address in brackets.  A name that ends in a number is an IPv4 address, of which
the parts may be decimal, octal or hexadecimal and the last may stand for several.
What a name beyond plain ASCII is in ASCII stands in tables that are not part of the
reading.

## Main definitions

* `UrlFault`: why an address cannot be read, and `UrlFault.message`.
* `NameTable`: what international names are in ASCII.
* `Host`, `Host.parse`, `Host.text`.
-/

namespace CloudCanvas

/-- Why an address cannot be read. -/
inductive UrlFault where
  | noScheme
  | emptyHost
  | invalidName
  | invalidCharacter
  | invalidIpv4
  | invalidIpv6
  | invalidPort
deriving DecidableEq

/-- The wording of a fault. -/
def UrlFault.message : UrlFault → String
  | .noScheme => "relative URL without a base"
  | .emptyHost => "empty host"
  | .invalidName => "invalid international domain name"
  | .invalidCharacter => "invalid domain character"
  | .invalidIpv4 => "invalid IPv4 address"
  | .invalidIpv6 => "invalid IPv6 address"
  | .invalidPort => "invalid port number"

/-- What an international name is in ASCII, none if it is not a name.  It is looked up
for names with characters beyond ASCII or with a label that stands for some. -/
abbrev NameTable := List Char → Option (List Char)

/-- A host. -/
inductive Host where
  | name (chars : List Char)
  | ipv4 (address : Nat)
  | ipv6 (pieces : List Nat)
deriving DecidableEq

namespace Host

/-! ## IPv4 -/

/-- A number in a base, of digits that belong to it; an empty row is zero. -/
def number? (base : Nat) (cs : List Char) : Option Nat :=
  cs.foldlM (fun n c => do
    let digit ← Percent.hexValue? c
    if digit < base then some (n * base + digit) else none) 0

/-- A part of an IPv4 address. -/
def part? (cs : List Char) : Option Nat :=
  match cs with
  | [] => none
  | '0' :: 'x' :: rest | '0' :: 'X' :: rest => number? 16 rest
  | '0' :: d :: rest => number? 8 (d :: rest)
  | cs => number? 10 cs

/-- The parts of a name, without an empty one at its end. -/
def parts (cs : List Char) : List (List Char) :=
  let parts := cs.splitOn '.'
  if parts.getLast? = some [] then parts.dropLast else parts

/-- Whether a name ends in a number. -/
def endsInNumber (cs : List Char) : Bool :=
  match (parts cs).getLast? with
  | none => false
  | some last => (!last.isEmpty && last.all Char.isDigit) || (part? last).isSome

/-- The address that parts stand for, the last filling what the others leave. -/
def ipv4Of (parts : List Nat) : Option Nat :=
  match parts.getLast? with
  | none => none
  | some last =>
    let others := parts.dropLast
    let room := Nat.pow 256 (4 - others.length)
    if others.length ≤ 3 ∧ others.all (· < 256) ∧ last < room then
      some (others.foldl (fun n part => n * 256 + part) 0 * room + last)
    else none

/-- The IPv4 address that a name is. -/
def ipv4? (cs : List Char) : Option Nat := do
  let parts ← (parts cs).mapM part?
  ipv4Of parts

/-! ## IPv6 -/

/-- A piece of an IPv6 address: one to four hexadecimal digits. -/
def piece? (cs : List Char) : Option Nat :=
  if cs.isEmpty || 4 < cs.length then none else number? 16 cs

/-- The two pieces that an IPv4 address at the end stands for. -/
def embedded? (cs : List Char) : Option (List Nat) := do
  let address ← Ipv4.parse? cs
  some [address / 65536, address % 65536]

/-- The pieces between colons, none for an empty text; the last may be an IPv4
address. -/
def pieces? (cs : List Char) : Option (List Nat) :=
  if cs.isEmpty then some []
  else
    let parts := cs.splitOn ':'
    match parts.getLast? with
    | none => none
    | some last => do
      let front ← parts.dropLast.mapM piece?
      let back ← if last.contains '.' then embedded? last else (piece? last).map ([·])
      some (front ++ back)

/-- The parts of a text before and after its first two colons in a row. -/
def splitGap : List Char → List Char × Option (List Char)
  | ':' :: ':' :: rest => ([], some rest)
  | c :: rest =>
    let (before, after) := splitGap rest
    (c :: before, after)
  | [] => ([], none)

/-- The pieces of an IPv6 address: eight, or fewer around a gap. -/
def ipv6? (cs : List Char) : Option (List Nat) :=
  match splitGap cs with
  | (all, none) => do
    let pieces ← pieces? all
    if pieces.length = 8 then some pieces else none
  | (before, some after) => do
    if before.contains '.' then none
    else
      let before ← pieces? before
      let after ← pieces? after
      let count := before.length + after.length
      if count ≤ 7 then some (before ++ List.replicate (8 - count) 0 ++ after) else none

/-- The length of the row of zeros at each place. -/
def zeroRuns : List Nat → List Nat
  | [] => []
  | 0 :: rest =>
    let runs := zeroRuns rest
    (runs.headD 0 + 1) :: runs
  | _ :: rest => 0 :: zeroRuns rest

/-- A row of pieces between colons. -/
def piecesText (pieces : List Nat) : List Char :=
  [':'].intercalate (pieces.map (Nat.toDigits 16))

/-- An IPv6 address with its first longest row of at least two zeros left out. -/
def ipv6Text (pieces : List Nat) : List Char :=
  let runs := zeroRuns pieces
  let longest := runs.foldl max 0
  if longest < 2 then piecesText pieces
  else
    let start := runs.idxOf longest
    piecesText (pieces.take start) ++ [':', ':'] ++ piecesText (pieces.drop (start + longest))

/-! ## Hosts -/

/-- The printed characters that no name has. -/
def notInName : List Char :=
  ['#', '/', ':', '<', '>', '?', '@', '[', '\\', ']', '^', '|', '%']

/-- Whether a text is in ASCII and has only characters that a name can have. -/
def isName (cs : List Char) : Bool :=
  cs.all (fun c => 0x20 < c.toNat && c.toNat < 0x7F && !notInName.contains c)

/-- Whether a name in lower case is in ASCII and no label of it stands for one that is
not. -/
def isPlain (cs : List Char) : Bool :=
  cs.all (·.toNat < 0x80) && !(cs.splitOn '.').any ("xn--".toList.isPrefixOf ·)

/-- A name in ASCII and in lower case. -/
def toAscii? (international : NameTable) (cs : List Char) : Option (List Char) :=
  let lower := cs.map Char.toLower
  (if isPlain lower then some lower else international cs).filter isName

/-- What stands between brackets. -/
def inBrackets? (cs : List Char) : Option (List Char) :=
  match cs with
  | '[' :: rest => if rest.getLast? = some ']' then some rest.dropLast else none
  | _ => none

/-- The IPv6 address in brackets. -/
def parseIpv6 (cs : List Char) : Except UrlFault Host :=
  match (inBrackets? cs).bind ipv6? with
  | some pieces => .ok (.ipv6 pieces)
  | none => .error .invalidIpv6

/-- The host of an address whose scheme gives hosts a meaning. -/
def parse (international : NameTable) (cs : List Char) : Except UrlFault Host :=
  if cs.isEmpty then .error .emptyHost
  else if cs.head? = some '[' then parseIpv6 cs
  else
    let decoded := decodeUtf8? ⟨(Percent.decode cs).toArray⟩
    match decoded.bind (fun name => toAscii? international name.toList) with
    | none => .error .invalidName
    | some chars =>
      if chars.isEmpty then .error .emptyHost
      else if endsInNumber chars then
        match ipv4? chars with
        | some address => .ok (.ipv4 address)
        | none => .error .invalidIpv4
      else .ok (.name chars)

/-- The host of an address of any other scheme, which is kept as it is. -/
def parseOpaque (cs : List Char) : Except UrlFault Host :=
  if cs.head? = some '[' then parseIpv6 cs
  else if cs.any (fun c => ['\x00', ' ', '<', '>', '@', '[', '\\', ']', '^', '|'].contains c) then
    .error .invalidCharacter
  else .ok (.name (Percent.encode Percent.always cs))

/-- A host as it is written. -/
def text : Host → List Char
  | .name chars => chars
  | .ipv4 address => (Ipv4.text address).toList
  | .ipv6 pieces => '[' :: (ipv6Text pieces ++ [']'])

end Host

end CloudCanvas
