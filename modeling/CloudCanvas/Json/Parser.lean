import CloudCanvas.Json
import CloudCanvas.Json.Token

/-!
# From tokens to trees

Tokens are read one at a time.  The arrays and objects that are still open form
a stack, and the state says what may come next, so that reading is a fold over
the tokens and needs no bound on the nesting.

## Main definitions

* `Reading`: what may come next, inside which open arrays and objects.
* `Reading.step`: one more token.
* `Json.parse?`: the tree of a text.
-/

namespace CloudCanvas

/-- An array or object of which one value is being read.  The parts before it are
kept last first. -/
inductive Frame where
  | item (before : List Json)
  | member (before : List (Option String × Json)) (key : Option String)

/-- What may come next.  The frames are what is open, innermost first. -/
inductive Reading where
  /-- A value. -/
  | value (frames : List Frame)
  /-- A value, or the end of the array just opened. -/
  | firstItem (frames : List Frame)
  /-- A key, or the end of the object just opened. -/
  | firstKey (frames : List Frame)
  /-- A key. -/
  | key (before : List (Option String × Json)) (frames : List Frame)
  /-- The colon behind a key. -/
  | colon (before : List (Option String × Json)) (key : Option String) (frames : List Frame)
  /-- What follows a whole value. -/
  | next (value : Json) (frames : List Frame)

namespace Reading

/-- The object of some members, unreadable if one of its keys is. -/
def ofMembers (members : List (Option String × Json)) : Json :=
  match members.mapM (fun member => member.1.map (·, member.2)) with
  | some members => .object members
  | none => .unreadable

/-- Read a token where a value must come. -/
def stepValue (frames : List Frame) : Token → Option Reading
  | .openArray => some (.firstItem frames)
  | .openObject => some (.firstKey frames)
  | .null => some (.next .null frames)
  | .bool b => some (.next (.bool b) frames)
  | .number (some n) => some (.next (.number n) frames)
  | .string (some s) => some (.next (.string s) frames)
  | .number none | .string none => some (.next .unreadable frames)
  | .closeArray | .closeObject | .comma | .colon => none

/-- Read a token behind a whole value. -/
def stepNext (tree : Json) (frames : List Frame) (token : Token) : Option Reading :=
  match frames, token with
  | .item before :: frames, .comma => some (.value (.item (tree :: before) :: frames))
  | .item before :: frames, .closeArray => some (.next (.array (tree :: before).reverse) frames)
  | .member before name :: frames, .comma => some (.key ((name, tree) :: before) frames)
  | .member before name :: frames, .closeObject =>
    some (.next (ofMembers ((name, tree) :: before).reverse) frames)
  | _, _ => none

/-- Read one more token. -/
def step (reading : Reading) (token : Token) : Option Reading :=
  match reading, token with
  | .value frames, token => stepValue frames token
  | .firstItem frames, .closeArray => some (.next (.array []) frames)
  | .firstItem frames, token => stepValue (.item [] :: frames) token
  | .firstKey frames, .closeObject => some (.next (.object []) frames)
  | .firstKey frames, .string name => some (.colon [] name frames)
  | .firstKey _, _ => none
  | .key before frames, .string name => some (.colon before name frames)
  | .key _ _, _ => none
  | .colon before name frames, .colon => some (.value (.member before name :: frames))
  | .colon _ _ _, _ => none
  | .next tree frames, token => stepNext tree frames token

/-- The tree that has been read, if it is whole and nothing is open. -/
def result? : Reading → Option Json
  | .next tree [] => some tree
  | _ => none

end Reading

/-- The tree of a row of tokens. -/
def Json.ofTokens? (tokens : List Token) : Option Json := do
  let reading ← tokens.foldlM Reading.step (.value [])
  reading.result?

/-- The tree of a text. -/
def Json.parse? (s : String) : Option Json := do
  let tokens ← tokens? s
  Json.ofTokens? tokens

end CloudCanvas
