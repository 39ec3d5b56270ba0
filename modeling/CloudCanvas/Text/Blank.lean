/-!
# Blank characters

Blank means the Unicode property `White_Space`: twenty-five code points, among
them the no-break space and the line and paragraph separators, but neither the
zero-width space nor the byte order mark.

## Main definitions

* `isBlank`: the property itself.
* `trimBlankEnd`, `trimBlank`: a text without its blank ends.
* `isAllBlank`: nothing but blanks, the empty text included.
-/

namespace CloudCanvas

/-- The code points with the property `White_Space`. -/
def isBlank (c : Char) : Bool :=
  let n := c.toNat
  (0x09 ≤ n && n ≤ 0x0D) || n == 0x20 || n == 0x85 || n == 0xA0 || n == 0x1680
    || (0x2000 ≤ n && n ≤ 0x200A) || n == 0x2028 || n == 0x2029 || n == 0x202F
    || n == 0x205F || n == 0x3000

/-- A text without the blanks at its start. -/
def trimBlankStart (cs : List Char) : List Char :=
  cs.dropWhile isBlank

/-- A text without the blanks at its end. -/
def trimBlankEnd (cs : List Char) : List Char :=
  (cs.reverse.dropWhile isBlank).reverse

/-- A text without the blanks at either end. -/
def trimBlank (s : String) : String :=
  String.ofList (trimBlankEnd (trimBlankStart s.toList))

/-- Whether a text holds nothing but blanks. -/
def isAllBlank (s : String) : Bool :=
  s.toList.all isBlank

/-- Whatever core counts as whitespace is blank. -/
theorem isBlank_of_isWhitespace {c : Char} (h : c.isWhitespace = true) : isBlank c = true := by
  simp only [Char.isWhitespace, Bool.or_eq_true, decide_eq_true_eq] at h
  rcases h with ((rfl | rfl) | rfl) | rfl <;> decide

/-- The last character that `trimBlankEnd` keeps is not blank. -/
theorem isBlank_getLast_trimBlankEnd {cs : List Char} {c : Char}
    (h : (trimBlankEnd cs).getLast? = some c) : isBlank c = false := by
  rw [trimBlankEnd, List.getLast?_reverse] at h
  have kept := List.head?_dropWhile_not isBlank cs.reverse
  rwa [h] at kept

end CloudCanvas
