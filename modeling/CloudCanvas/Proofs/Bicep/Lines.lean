import CloudCanvas.Proofs.Bicep.Source

/-!
# Lines of source

Lines can be written down with any of three line ends between them, with or without one more
behind the last, and with or without a byte order mark in front.  What they come to is the same:
the lines up to the last one that is not blank, as they are but for the blanks at the very end,
each with a line feed behind it.

## Main definitions

* `LineEnd`, `LineStyle`, `LineStyle.write`: how lines are written down.
* `linesText`: lines with a line feed behind each of them.
* `KeepsLines`: what is kept of lines.

The main statement is `normalizeSource_write`.
-/

namespace CloudCanvas

/-- How a line can end. -/
inductive LineEnd where
  | lineFeed
  | carriageReturn
  | returnAndFeed
deriving DecidableEq

/-- The text of a line end. -/
def LineEnd.text : LineEnd → String
  | .lineFeed => "\n"
  | .carriageReturn => "\r"
  | .returnAndFeed => "\r\n"

/-- How lines are written down: with which line end, whether there is one behind the last line
too, and whether a byte order mark stands in front. -/
structure LineStyle where
  lineEnd : LineEnd
  ended : Bool
  marked : Bool
deriving DecidableEq

/-- Lines as they are written down. -/
def LineStyle.write (style : LineStyle) (lines : List String) : String :=
  (if style.marked then String.singleton byteOrderMark else "") ++
    style.lineEnd.text.intercalate lines ++ (if style.ended then style.lineEnd.text else "")

/-- Lines with a line feed behind each of them. -/
def linesText (lines : List String) : String :=
  String.join (lines.map (· ++ "\n"))

/-- A text is one line. -/
def IsLine (line : String) : Prop :=
  '\r' ∉ line.toList ∧ '\n' ∉ line.toList

instance (line : String) : Decidable (IsLine line) :=
  inferInstanceAs (Decidable (_ ∧ _))

/-- What is kept of lines: nothing if all of them are blank, and else those up to the last one
that is not, which loses the blanks at its end. -/
inductive KeepsLines : List String → List String → Prop
  | nothing {lines : List String} (blank : ∀ line ∈ lines, isAllBlank line = true) :
      KeepsLines lines []
  | upTo {before after : List String} {text blanks : String} {last : Char}
      (ends : text.toList.getLast? = some last) (nonblank : isBlank last = false)
      (trailing : isAllBlank blanks = true) (blank : ∀ line ∈ after, isAllBlank line = true) :
      KeepsLines (before ++ (text ++ blanks) :: after) (before ++ [text])

/-! ## What is kept -/

theorem KeepsLines.concat {lines kept : List String} {line : String} (h : KeepsLines lines kept)
    (last : isAllBlank line = true) : KeepsLines (lines ++ [line]) kept := by
  have later : ∀ {lines : List String}, (∀ line ∈ lines, isAllBlank line = true) →
      ∀ other ∈ lines ++ [line], isAllBlank other = true := by
    intro lines blank other mem
    rcases List.mem_append.1 mem with mem | mem
    · exact blank other mem
    · rw [List.mem_singleton.1 mem, last]
  cases h with
  | nothing blank => exact .nothing (later blank)
  | upTo ends nonblank trailing blank =>
      rw [List.append_assoc]
      exact .upTo ends nonblank trailing (later blank)

/-- Of all lines something is kept. -/
theorem exists_keepsLines (lines : List String) : ∃ kept, KeepsLines lines kept := by
  induction lines using List.reverseRecOn with
  | nil => exact ⟨[], .nothing (by simp)⟩
  | append_singleton lines line ih =>
      by_cases blank : isAllBlank line = true
      · obtain ⟨kept, keeps⟩ := ih
        exact ⟨kept, keeps.concat blank⟩
      · obtain ⟨text, blanks, last, rfl, ends, nonblank, trailing⟩ :=
          exists_append_of_not_isAllBlank blank
        exact ⟨_, .upTo ends nonblank trailing (by simp)⟩

/-! ## Lines with something between them -/

section Joined

variable {sep : List Char} {lines : List (List Char)}

theorem intercalate_eq_flatMap : sep.intercalate lines =
    lines.headD [] ++ lines.tail.flatMap (sep ++ ·) := by
  cases lines with
  | nil => rfl
  | cons first rest =>
      induction rest generalizing first with
      | nil => simp
      | cons second rest ih =>
          rw [List.intercalate_cons_cons, ih]
          simp

theorem intercalate_append_self (ne : lines ≠ []) :
    sep.intercalate lines ++ sep = lines.flatMap (· ++ sep) := by
  induction lines with
  | nil => exact absurd rfl ne
  | cons first rest ih =>
      cases rest with
      | nil => simp
      | cons second rest =>
          rw [List.intercalate_cons_cons, List.append_assoc, ih (List.cons_ne_nil _ _)]
          simp

end Joined

/-! ## Line ends become line feeds -/

namespace LineEnd

variable {lineEnd : LineEnd} {lines : List (List Char)} {rest : List Char}

theorem head?_text : lineEnd.text.toList.head? = some '\n' ↔ lineEnd = .lineFeed := by
  cases lineEnd <;> decide

theorem unifyLines_text : unifyLines lineEnd.text.toList = ['\n'] := by
  cases lineEnd <;> decide

/-- A line end is a line feed, if what follows does not make another line end of it. -/
theorem unifyLines_text_append (apart : rest.head? = some '\n' → lineEnd = .lineFeed) :
    unifyLines (lineEnd.text.toList ++ rest) = '\n' :: unifyLines rest := by
  cases lineEnd with
  | lineFeed => exact unifyLines_cons (by decide) rest
  | carriageReturn =>
      cases rest with
      | nil => decide
      | cons c rest =>
          have ne : c ≠ '\n' := fun eq => by simp [eq] at apart
          simp [text, unifyLines, ne]
  | returnAndFeed => simp [text, unifyLines]

theorem text_toList_ne_nil (lineEnd : LineEnd) : lineEnd.text.toList ≠ [] := by
  cases lineEnd <;> decide

/-- Lines behind line ends start with a line feed only if all line ends are line feeds. -/
theorem eq_lineFeed_of_breaks (apart : rest.head? = some '\n' → lineEnd = .lineFeed)
    (head : (lines.flatMap (lineEnd.text.toList ++ ·) ++ rest).head? = some '\n') :
    lineEnd = .lineFeed := by
  cases lines with
  | nil => exact apart head
  | cons line lines =>
      rw [List.flatMap_cons, List.append_assoc, List.append_assoc,
        List.head?_append_of_ne_nil _ lineEnd.text_toList_ne_nil] at head
      exact head?_text.1 head

/-- The line ends in front of lines become line feeds. -/
theorem unifyLines_breaks (plain : ∀ line ∈ lines, '\r' ∉ line ∧ '\n' ∉ line)
    (apart : rest.head? = some '\n' → lineEnd = .lineFeed) :
    unifyLines (lines.flatMap (lineEnd.text.toList ++ ·) ++ rest) =
      lines.flatMap (['\n'] ++ ·) ++ unifyLines rest := by
  induction lines with
  | nil => rfl
  | cons line lines ih =>
      have ⟨here, later⟩ := List.forall_mem_cons.1 plain
      -- a carriage return would be taken together with a line feed behind it
      have apart : (line ++ (lines.flatMap (lineEnd.text.toList ++ ·) ++ rest)).head? =
          some '\n' → lineEnd = .lineFeed := by
        intro head
        cases line with
        | nil => exact eq_lineFeed_of_breaks apart head
        | cons c line =>
            have eq : c = '\n' := by simpa using head
            exact absurd (eq ▸ List.mem_cons_self) here.2
      rw [List.flatMap_cons, List.append_assoc, List.append_assoc, unifyLines_text_append apart,
        unifyLines_append here.1, ih later]
      simp

end LineEnd

/-! ## How lines are written down makes no difference -/

namespace LineStyle

variable (style : LineStyle) (lines : List String)

/-- The lines with what stands between and behind them. -/
def joined : List Char :=
  style.lineEnd.text.toList.intercalate (lines.map String.toList) ++
    (if style.ended then style.lineEnd.text.toList else [])

theorem toList_write : (style.write lines).toList =
    (if style.marked then [byteOrderMark] else []) ++ style.joined lines := by
  rw [write, joined, String.toList_append, String.toList_append, String.toList_intercalate,
    List.append_assoc]
  cases style.marked <;> cases style.ended <;> simp

variable {style lines}

theorem unifyLines_joined (plain : ∀ line ∈ lines, IsLine line) :
    unifyLines (style.joined lines) = ['\n'].intercalate (lines.map String.toList) ++
      (if style.ended then ['\n'] else []) := by
  have plain : ∀ line ∈ lines.map String.toList, '\r' ∉ line ∧ '\n' ∉ line :=
    List.forall_mem_map.2 plain
  have first : '\r' ∉ (lines.map String.toList).headD [] := by
    cases lines with
    | nil => simp
    | cons line lines => exact (plain _ List.mem_cons_self).1
  have rest : ∀ line ∈ (lines.map String.toList).tail, '\r' ∉ line ∧ '\n' ∉ line :=
    fun line mem => plain line (List.mem_of_mem_tail mem)
  have apart : (if style.ended then style.lineEnd.text.toList else []).head? = some '\n' →
      style.lineEnd = .lineFeed := by
    intro head
    split at head
    · exact LineEnd.head?_text.1 head
    · cases head
  have last : unifyLines (if style.ended then style.lineEnd.text.toList else []) =
      if style.ended then ['\n'] else [] := by
    split
    · exact LineEnd.unifyLines_text
    · rfl
  rw [joined, intercalate_eq_flatMap, List.append_assoc, unifyLines_append first,
    LineEnd.unifyLines_breaks rest apart, last, intercalate_eq_flatMap, List.append_assoc]

/-- Lines of which the first has no mark start with none. -/
theorem head?_joined_ne (plain : ∀ line ∈ lines, IsLine line)
    (unmarked : ∀ first ∈ lines.head?, first.toList.head? ≠ some byteOrderMark) :
    (style.joined lines).head? ≠ some byteOrderMark := by
  have feeds : ∀ texts : List (List Char), (texts.flatMap (['\n'] ++ ·) ++
      if style.ended then ['\n'] else []).head? ≠ some byteOrderMark := by
    intro texts
    cases texts <;> cases style.ended <;> simp [byteOrderMark]
  rw [ne_eq, ← head?_unifyLines, unifyLines_joined plain, intercalate_eq_flatMap,
    List.append_assoc]
  cases lines with
  | nil => exact feeds []
  | cons first rest =>
      have unmarked := unmarked first rfl
      cases text : first.toList with
      | nil => simpa [text] using feeds (rest.map String.toList)
      | cons c cs => simpa [text] using unmarked

/-- **However lines are written down**, what is trimmed in the end is the same. -/
theorem sourceBody_write (plain : ∀ line ∈ lines, IsLine line)
    (unmarked : ∀ first ∈ lines.head?, first.toList.head? ≠ some byteOrderMark) :
    sourceBody (style.write lines) = trimBlankEnd (linesText lines).toList := by
  have last : ∀ c ∈ (if style.ended then ['\n'] else []), isBlank c = true := by
    split
    · exact isBlank_lineFeed
    · simp
  have unmark : dropMark (style.write lines).toList = style.joined lines := by
    rw [toList_write]
    split
    · exact dropMark_cons _
    · exact dropMark_eq_self (head?_joined_ne plain unmarked)
  rw [sourceBody, unmark, unifyLines_joined plain, trimBlankEnd_append_of_blank last]
  cases lines with
  | nil => rfl
  | cons line lines =>
      rw [← trimBlankEnd_append_of_blank isBlank_lineFeed, intercalate_append_self (by simp),
        linesText]
      simp [String.toList_join, List.flatMap_map]

end LineStyle

/-! ## The normal form of lines -/

theorem linesText_append (lines others : List String) :
    linesText (lines ++ others) = linesText lines ++ linesText others := by
  rw [linesText, List.map_append, String.join_append, linesText, linesText]

theorem toList_linesText_cons (line : String) (lines : List String) :
    (linesText (line :: lines)).toList = line.toList ++ '\n' :: (linesText lines).toList := by
  simp [linesText, String.join_cons]

/-- Blank lines are blank together. -/
theorem isBlank_linesText {lines : List String} (blank : ∀ line ∈ lines, isAllBlank line = true) :
    ∀ c ∈ (linesText lines).toList, isBlank c = true := by
  induction lines with
  | nil => simp [linesText]
  | cons line lines ih =>
      have ⟨here, later⟩ := List.forall_mem_cons.1 blank
      intro c mem
      rw [toList_linesText_cons, List.mem_append, List.mem_cons] at mem
      rcases mem with mem | rfl | mem
      · exact isAllBlank_iff.1 here c mem
      · decide
      · exact ih later c mem

/-- What is trimmed of lines is what is not kept of them. -/
theorem KeepsLines.normalizeSource_eq {lines kept : List String} {s : String}
    (h : KeepsLines lines kept)
    (body : sourceBody s = trimBlankEnd (linesText lines).toList) :
    normalizeSource s = linesText kept := by
  refine String.toList_injective ?_
  rw [toList_normalizeSource]
  cases h with
  | nothing blank =>
      rw [body, trimBlankEnd_eq_nil_iff.2 (isBlank_linesText blank)]
      rfl
  | @upTo before after text blanks last ends nonblank trailing blank =>
      obtain ⟨front, text⟩ := List.getLast?_eq_some_iff.1 ends
      have behind : ∀ c ∈ blanks.toList ++ '\n' :: (linesText after).toList, isBlank c = true := by
        intro c mem
        rw [List.mem_append, List.mem_cons] at mem
        rcases mem with mem | rfl | mem
        · exact isAllBlank_iff.1 trailing c mem
        · decide
        · exact isBlank_linesText blank c mem
      have body : sourceBody s = (linesText before).toList ++ front ++ [last] := by
        rw [body, linesText_append, String.toList_append, toList_linesText_cons,
          String.toList_append, List.append_assoc, ← List.append_assoc,
          trimBlankEnd_append_of_blank behind, text, ← List.append_assoc,
          trimBlankEnd_concat nonblank]
      rw [body, if_neg (by simp), linesText_append, String.toList_append, toList_linesText_cons,
        text]
      simp [linesText]

/-- **What lines come to does not depend on how they are written down.**  Of all lines of which
the first has no byte order mark something is kept, and in all styles they come to what is kept
of them, with a line feed behind each line. -/
theorem normalizeSource_write {lines : List String} (plain : ∀ line ∈ lines, IsLine line)
    (unmarked : ∀ first ∈ lines.head?, first.toList.head? ≠ some byteOrderMark) :
    (∃ kept, KeepsLines lines kept) ∧ ∀ kept, KeepsLines lines kept →
      ∀ style : LineStyle, normalizeSource (style.write lines) = linesText kept :=
  ⟨exists_keepsLines lines, fun _ keeps _ =>
    keeps.normalizeSource_eq (LineStyle.sourceBody_write plain unmarked)⟩

/-- Indented and blank lines are kept before the last one that is not blank. -/
theorem normalizeSource_write_indented : let lines := ["  a\t", "", "b\u00A0 ", " ", "\t"]
    (∀ line ∈ lines, IsLine line) ∧
      (∀ first ∈ lines.head?, first.toList.head? ≠ some byteOrderMark) ∧
      ∀ style : LineStyle, normalizeSource (style.write lines) = "  a\t\n\nb\n" := by
  intro lines
  have plain : ∀ line ∈ lines, IsLine line := by decide
  have unmarked : ∀ first ∈ lines.head?, first.toList.head? ≠ some byteOrderMark := by decide
  have split : lines = ["  a\t", ""] ++ ("b" ++ "\u00A0 ") :: [" ", "\t"] := by decide
  have ends : "b".toList.getLast? = some 'b' := by decide
  have keeps : KeepsLines lines (["  a\t", ""] ++ ["b"]) := by
    rw [split]
    exact .upTo ends (by decide) (by decide) (by decide)
  exact ⟨plain, unmarked, (normalizeSource_write plain unmarked).2 _ keeps⟩

end CloudCanvas
