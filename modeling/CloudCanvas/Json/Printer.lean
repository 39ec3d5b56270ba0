import CloudCanvas.Json.Value

/-!
# JSON text

A tree has a compact form without any space and a spread form with one part a
line, two spaces deeper for each array or object around it.  An empty array or
object stays on one line.  In strings only the quote, the backslash and the
control characters below the space are escaped.

## Main definitions

* `Json.compact`, `Json.pretty`: the two forms.
-/

namespace CloudCanvas

namespace Json

/-- A hexadecimal digit in lower case. -/
def hexDigit (n : Nat) : Char :=
  Nat.digitChar (n % 16)

/-- How a character is written inside a string. -/
def escapeChar (c : Char) : List Char :=
  match c with
  | '"' => ['\\', '"']
  | '\\' => ['\\', '\\']
  | '\x08' => ['\\', 'b']
  | '\t' => ['\\', 't']
  | '\n' => ['\\', 'n']
  | '\x0c' => ['\\', 'f']
  | '\r' => ['\\', 'r']
  | c =>
    if c < ' ' then ['\\', 'u', '0', '0', hexDigit (c.toNat / 16), hexDigit c.toNat] else [c]

/-- A text in quotes. -/
def quoteChars (s : String) : List Char :=
  '"' :: (s.toList.flatMap escapeChar ++ ['"'])

/-- How a scalar is written.  An unreadable one leaves no trace of what it was. -/
def scalarChars : Json → List Char
  | .bool true => ['t', 'r', 'u', 'e']
  | .bool false => ['f', 'a', 'l', 's', 'e']
  | .number n => n.text.toList
  | .string s => quoteChars s
  | _ => ['n', 'u', 'l', 'l']

mutual

/-- A tree without any space, in front of a text. -/
def compactChars : Json → List Char → List Char
  | .array items, rest => '[' :: compactItems true items (']' :: rest)
  | .object members, rest => '\x7b' :: compactMembers true members ('\x7d' :: rest)
  | .null, rest => scalarChars .null ++ rest
  | .bool b, rest => scalarChars (.bool b) ++ rest
  | .number n, rest => scalarChars (.number n) ++ rest
  | .string s, rest => scalarChars (.string s) ++ rest
  | .unreadable, rest => scalarChars .unreadable ++ rest

/-- Items parted by commas, in front of a text. -/
def compactItems (first : Bool) : List Json → List Char → List Char
  | [], rest => rest
  | item :: items, rest =>
    (if first then [] else [',']) ++ compactChars item (compactItems false items rest)

/-- Members parted by commas, in front of a text. -/
def compactMembers (first : Bool) : List (String × Json) → List Char → List Char
  | [], rest => rest
  | (key, value) :: members, rest =>
    (if first then [] else [',']) ++ (quoteChars key ++ ':' ::
      compactChars value (compactMembers false members rest))

end

/-- A new line at a depth. -/
def newLine (depth : Nat) : List Char :=
  '\n' :: List.replicate (2 * depth) ' '

mutual

/-- A tree that stands at a depth, one part a line, in front of a text. -/
def prettyChars (depth : Nat) : Json → List Char → List Char
  | .array items, rest =>
    if items.isEmpty then '[' :: ']' :: rest
    else '[' :: prettyItems (depth + 1) true items (newLine depth ++ ']' :: rest)
  | .object members, rest =>
    if members.isEmpty then '\x7b' :: '\x7d' :: rest
    else '\x7b' :: prettyMembers (depth + 1) true members (newLine depth ++ '\x7d' :: rest)
  | .null, rest => scalarChars .null ++ rest
  | .bool b, rest => scalarChars (.bool b) ++ rest
  | .number n, rest => scalarChars (.number n) ++ rest
  | .string s, rest => scalarChars (.string s) ++ rest
  | .unreadable, rest => scalarChars .unreadable ++ rest

/-- Items that stand at a depth, each on its line, in front of a text. -/
def prettyItems (depth : Nat) (first : Bool) : List Json → List Char → List Char
  | [], rest => rest
  | item :: items, rest =>
    (if first then [] else [',']) ++ (newLine depth ++
      prettyChars depth item (prettyItems depth false items rest))

/-- Members that stand at a depth, each on its line, in front of a text. -/
def prettyMembers (depth : Nat) (first : Bool) : List (String × Json) → List Char → List Char
  | [], rest => rest
  | (key, value) :: members, rest =>
    (if first then [] else [',']) ++ (newLine depth ++ (quoteChars key ++ ':' :: ' ' ::
      prettyChars depth value (prettyMembers depth false members rest)))

end

/-- The text of a tree without any space. -/
def compact (json : Json) : String :=
  String.ofList (compactChars json [])

/-- The text of a tree with one part a line. -/
def pretty (json : Json) : String :=
  String.ofList (prettyChars 0 json [])

end Json

/-- The text of a value without any space. -/
def Value.compact (v : Value) : String :=
  v.json.compact

end CloudCanvas
