import CloudCanvas.Json.Number

/-!
# Tokens of a JSON text

The scanner reads one character at a time; what it has begun is its state, so
that reading a text is a fold over its characters.

## Main definitions

* `Token`: punctuation, words, numbers and strings.
* `Scan`: what has been begun, and `Scan.step`, one more character.
* `tokens?`: the tokens of a text, none if it has none.
-/

namespace CloudCanvas

/-- A token.  A string with half of a surrogate pair and a number beyond all
doubles are tokens without a value. -/
inductive Token where
  | openArray
  | closeArray
  | openObject
  | closeObject
  | comma
  | colon
  | null
  | bool (value : Bool)
  | number (value : Option Number)
  | string (value : Option String)
deriving DecidableEq

/-- A character of a string, or half of a surrogate pair written as an escape. -/
inductive Piece where
  | whole (c : Char)
  | half (code : Nat)
deriving DecidableEq

namespace Piece

/-- What an escape with four hexadecimal digits stands for. -/
def ofCode (code : Nat) : Piece :=
  if 0xD800 ≤ code ∧ code ≤ 0xDFFF then half code else whole (Char.ofNat code)

/-- The characters of a row of pieces, in which each half is the first or the
second of a pair. -/
def chars? : List Piece → Option (List Char)
  | [] => some []
  | .whole c :: rest => (chars? rest).map (c :: ·)
  | .half high :: .half low :: rest =>
    if high < 0xDC00 ∧ 0xDC00 ≤ low then
      (chars? rest).map (Char.ofNat (0x10000 + (high - 0xD800) * 0x400 + (low - 0xDC00)) :: ·)
    else none
  | .half _ :: _ => none

end Piece

/-- What the scanner has begun to read.  Characters and pieces are kept last
first. -/
inductive Scan where
  /-- Nothing: the next character starts a token. -/
  | between
  /-- A word. -/
  | word (letters : List Char)
  /-- A number. -/
  | number (chars : List Char)
  /-- A string. -/
  | text (pieces : List Piece)
  /-- A string, of which the last character began an escape. -/
  | escape (pieces : List Piece)
  /-- A string that ends in the first `count` of four hexadecimal digits. -/
  | code (pieces : List Piece) (count value : Nat)
deriving DecidableEq

namespace Scan

/-- Space, tab, line feed and carriage return part tokens. -/
def isSpace (c : Char) : Bool :=
  c == ' ' || c == '\t' || c == '\n' || c == '\r'

/-- Whether a character can stand in a number. -/
def isNumeric (c : Char) : Bool :=
  c.isDigit || c == '-' || c == '+' || c == '.' || c == 'e' || c == 'E'

/-- The value of a hexadecimal digit. -/
def hexValue? (c : Char) : Option Nat :=
  if c.isDigit then some (c.toNat - '0'.toNat)
  else if 'a' ≤ c ∧ c ≤ 'f' then some (c.toNat - 'a'.toNat + 10)
  else if 'A' ≤ c ∧ c ≤ 'F' then some (c.toNat - 'A'.toNat + 10)
  else none

/-- The character that a one-letter escape stands for. -/
def escaped? (c : Char) : Option Char :=
  match c with
  | '"' => some '"'
  | '\\' => some '\\'
  | '/' => some '/'
  | 'b' => some '\x08'
  | 'f' => some '\x0c'
  | 'n' => some '\n'
  | 'r' => some '\r'
  | 't' => some '\t'
  | _ => none

/-- The token that a whole word is. -/
def wordToken? (letters : List Char) : Option Token :=
  if letters = ['n', 'u', 'l', 'l'] then some .null
  else if letters = ['t', 'r', 'u', 'e'] then some (.bool true)
  else if letters = ['f', 'a', 'l', 's', 'e'] then some (.bool false)
  else none

/-- The token that a whole number is. -/
def numberToken? (chars : List Char) : Option Token :=
  (Numeral.read? chars).map (fun numeral => .number (Number.ofNumeral? numeral))

/-- The token that a whole string is. -/
def textToken (pieces : List Piece) : Token :=
  .string ((Piece.chars? pieces).map String.ofList)

/-- Start a token, or pass over a space. -/
def start? (c : Char) : Option (Scan × List Token) :=
  if isSpace c then some (.between, [])
  else if c == '"' then some (.text [], [])
  else if c.isDigit || c == '-' then some (.number [c], [])
  else if 'a' ≤ c ∧ c ≤ 'z' then some (.word [c], [])
  else match c with
    | '[' => some (.between, [.openArray])
    | ']' => some (.between, [.closeArray])
    | '{' => some (.between, [.openObject])
    | '}' => some (.between, [.closeObject])
    | ',' => some (.between, [.comma])
    | ':' => some (.between, [.colon])
    | _ => none

/-- Start a token behind one that its last character did not show to be whole. -/
def startAfter? (token : Option Token) (c : Char) : Option (Scan × List Token) := do
  let token ← token
  let (scan, tokens) ← start? c
  some (scan, token :: tokens)

/-- Read one more character: what is begun after it and the tokens it makes
whole. -/
def step (scan : Scan) (c : Char) : Option (Scan × List Token) :=
  match scan with
  | between => start? c
  | word letters =>
    if 'a' ≤ c ∧ c ≤ 'z' then some (.word (c :: letters), [])
    else startAfter? (wordToken? letters.reverse) c
  | number chars =>
    if isNumeric c then some (.number (c :: chars), [])
    else startAfter? (numberToken? chars.reverse) c
  | text pieces =>
    if c == '"' then some (.between, [textToken pieces.reverse])
    else if c == '\\' then some (.escape pieces, [])
    else if c < ' ' then none
    else some (.text (.whole c :: pieces), [])
  | escape pieces =>
    if c == 'u' then some (.code pieces 0 0, [])
    else (escaped? c).map (fun c => (.text (.whole c :: pieces), []))
  | code pieces count value =>
    (hexValue? c).map (fun digit =>
      let value := value * 16 + digit
      if count < 3 then (.code pieces (count + 1) value, [])
      else (.text (Piece.ofCode value :: pieces), []))

/-- The tokens that the end of the text makes whole. -/
def finish? : Scan → Option (List Token)
  | between => some []
  | word letters => (wordToken? letters.reverse).map ([·])
  | number chars => (numberToken? chars.reverse).map ([·])
  | text _ | escape _ | code _ _ _ => none

/-- The tokens of a text, in front of which something has been begun.  The
tokens before are kept last first. -/
def run (scan : Scan) (before : List Token) : List Char → Option (List Token)
  | [] => scan.finish?.map (fun last => (last.reverse ++ before).reverse)
  | c :: rest =>
    match scan.step c with
    | some (scan, found) => run scan (found.reverse ++ before) rest
    | none => none

end Scan

/-- The tokens of a text. -/
def tokens? (s : String) : Option (List Token) :=
  Scan.run .between [] s.toList

end CloudCanvas
