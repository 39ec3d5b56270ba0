import CloudCanvas.Text.Blank

/-!
# The normal form of Bicep source

Source has no byte order mark, its lines end in a line feed, and exactly one of
these stands at its end, behind something that is not blank.  Source that is
nothing but blanks is empty.

## Main definitions

* `normalizeSource`: any text brought to that form.
-/

namespace CloudCanvas

/-- The byte order mark. -/
def byteOrderMark : Char := '\uFEFF'

/-- A text without one byte order mark at its start. -/
def dropMark : List Char → List Char
  | c :: rest => if c = byteOrderMark then rest else c :: rest
  | [] => []

/-- A text in which a carriage return with its line feed, or one alone, is a line
feed. -/
def unifyLines : List Char → List Char
  | '\r' :: '\n' :: rest => '\n' :: unifyLines rest
  | '\r' :: rest => '\n' :: unifyLines rest
  | c :: rest => c :: unifyLines rest
  | [] => []

/-- The normal form of a text. -/
def normalizeSource (s : String) : String :=
  let body := trimBlankEnd (unifyLines (dropMark s.toList))
  if body.isEmpty then "" else String.ofList (body ++ ['\n'])

end CloudCanvas
