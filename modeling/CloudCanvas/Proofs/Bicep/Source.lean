import CloudCanvas.Bicep.Source
import CloudCanvas.Proofs.Text.Blank

/-!
# The normal form of source

Source in normal form is what stays as it is when it is brought to normal form.  Whatever a text
is, it comes out with line feeds alone, and empty or ending in exactly one of them.  It comes out
in normal form, and for good, unless it starts with two byte order marks: only the first of them
is taken off.

## Main definitions

* `IsNormalSource`: the normal form, said of a text.
* `IsMarkedTwice`: a text that starts with two byte order marks.

The main statements are `normalizeSource_eq_self_iff` and
`normalizeSource_normal_unless_markedTwice`.
-/

namespace CloudCanvas

/-- A text is empty or ends in exactly one line feed, behind a character that is not blank. -/
def EndsOnce (s : String) : Prop :=
  s = "" ∨ ∃ before last, isBlank last = false ∧ s.toList = before ++ [last, '\n']

/-- A text in normal form. -/
structure IsNormalSource (s : String) : Prop where
  unmarked : s.toList.head? ≠ some byteOrderMark
  unified : '\r' ∉ s.toList
  endsOnce : EndsOnce s

/-- A text starts with two byte order marks. -/
def IsMarkedTwice (s : String) : Prop :=
  [byteOrderMark, byteOrderMark] <+: s.toList

instance (s : String) : Decidable (IsMarkedTwice s) :=
  inferInstanceAs (Decidable (_ <+: _))

variable {s : String}

/-! ## Line ends -/

theorem unifyLines_cons {c : Char} (h : c ≠ '\r') (cs : List Char) :
    unifyLines (c :: cs) = c :: unifyLines cs := by
  rw [unifyLines]
  · intro rest eq
    exact absurd eq h
  · exact h

/-- No carriage return is left. -/
theorem notMem_unifyLines (cs : List Char) : '\r' ∉ unifyLines cs := by
  fun_induction unifyLines cs with
  | case1 rest ih => simpa using ih
  | case2 rest _ ih => simpa using ih
  | case3 c rest _ ne ih =>
      rw [List.mem_cons, not_or]
      exact ⟨fun eq => ne eq.symm, ih⟩
  | case4 => simp

theorem unifyLines_append {line : List Char} (h : '\r' ∉ line) (rest : List Char) :
    unifyLines (line ++ rest) = line ++ unifyLines rest := by
  induction line with
  | nil => rfl
  | cons c line ih =>
      rw [List.mem_cons, not_or] at h
      rw [List.cons_append, unifyLines_cons (fun eq => h.1 eq.symm), ih h.2, List.cons_append]

theorem unifyLines_eq_self {cs : List Char} (h : '\r' ∉ cs) : unifyLines cs = cs := by
  have alone := unifyLines_append h []
  rwa [List.append_nil, unifyLines, List.append_nil] at alone

/-- Byte order marks are no line ends, and none of them is lost. -/
theorem count_unifyLines (cs : List Char) :
    (unifyLines cs).count byteOrderMark = cs.count byteOrderMark := by
  fun_induction unifyLines cs with
  | case1 rest ih => simpa [byteOrderMark] using ih
  | case2 rest _ ih => simpa [byteOrderMark] using ih
  | case3 c rest _ _ ih => rw [List.count_cons, List.count_cons, ih]
  | case4 => rfl

theorem isBlank_lineFeed : ∀ c ∈ ['\n'], isBlank c = true :=
  List.forall_mem_singleton.2 (by decide)

/-! ## What is left before the last line feed -/

/-- What a text comes to but for the line feed at its end. -/
def sourceBody (s : String) : List Char :=
  trimBlankEnd (unifyLines (dropMark s.toList))

theorem toList_normalizeSource (s : String) : (normalizeSource s).toList =
    if sourceBody s = [] then [] else sourceBody s ++ ['\n'] := by
  rw [normalizeSource]
  change (if (sourceBody s).isEmpty then "" else String.ofList (sourceBody s ++ ['\n'])).toList = _
  by_cases empty : sourceBody s = []
  · simp [empty]
  · simp [empty]

theorem notMem_normalizeSource (s : String) : '\r' ∉ (normalizeSource s).toList := by
  have body : '\r' ∉ sourceBody s := fun mem =>
    notMem_unifyLines _ ((trimBlankEnd_isPrefix _).subset mem)
  rw [toList_normalizeSource]
  split
  · exact List.not_mem_nil
  · simpa using body

theorem endsOnce_normalizeSource (s : String) : EndsOnce (normalizeSource s) := by
  have text := toList_normalizeSource s
  rcases trimBlankEnd_eq_nil_or_concat (unifyLines (dropMark s.toList)) with
    empty | ⟨before, last, nonblank, body⟩
  · rw [sourceBody, empty, if_pos rfl] at text
    exact .inl (String.toList_injective text)
  · rw [sourceBody, body, if_neg (by simp)] at text
    exact .inr ⟨before, last, nonblank, by simpa using text⟩

/-! ## Byte order marks -/

theorem isBlank_byteOrderMark : isBlank byteOrderMark = false := by decide

theorem dropMark_cons (cs : List Char) : dropMark (byteOrderMark :: cs) = cs := by
  rw [dropMark, if_pos rfl]

theorem dropMark_eq_self {cs : List Char} (h : cs.head? ≠ some byteOrderMark) :
    dropMark cs = cs := by
  cases cs with
  | nil => rfl
  | cons c cs => rw [dropMark, if_neg (by simpa using h)]

theorem isMarkedTwice_iff : IsMarkedTwice s ↔ (dropMark s.toList).head? = some byteOrderMark := by
  rw [IsMarkedTwice]
  cases text : s.toList with
  | nil => simp [dropMark]
  | cons c cs =>
      by_cases marked : c = byteOrderMark
      · rw [marked, dropMark_cons, List.cons_prefix_cons]
        cases cs <;> simp [eq_comm]
      · rw [dropMark_eq_self (by simpa using marked)]
        simp [marked, eq_comm]

theorem head?_unifyLines (cs : List Char) :
    (unifyLines cs).head? = some byteOrderMark ↔ cs.head? = some byteOrderMark := by
  fun_cases unifyLines cs with
  | case1 rest => simp [byteOrderMark]
  | case2 rest => simp [byteOrderMark]
  | case3 c rest => simp
  | case4 => simp

theorem head?_sourceBody : (sourceBody s).head? = some byteOrderMark ↔ IsMarkedTwice s := by
  rw [isMarkedTwice_iff, ← head?_unifyLines (dropMark _), sourceBody]
  constructor
  · intro head
    obtain ⟨rest, body⟩ := List.head?_eq_some_iff.1 head
    obtain ⟨blanks, text⟩ := trimBlankEnd_isPrefix (unifyLines (dropMark s.toList))
    rw [← text, body]
    rfl
  · intro head
    obtain ⟨rest, text⟩ := List.head?_eq_some_iff.1 head
    rw [text, trimBlankEnd_cons isBlank_byteOrderMark]
    rfl

/-- What a text comes to starts with a mark if the text still does behind its first one. -/
theorem head?_normalizeSource :
    (normalizeSource s).toList.head? = some byteOrderMark ↔ IsMarkedTwice s := by
  rw [← head?_sourceBody, toList_normalizeSource]
  cases sourceBody s with
  | nil => simp
  | cons c rest => simp

/-- A text that starts with a mark does not stay as it is: it has one mark less. -/
theorem normalizeSource_ne_self (marked : s.toList.head? = some byteOrderMark) :
    normalizeSource s ≠ s := by
  intro same
  obtain ⟨cs, text⟩ := List.head?_eq_some_iff.1 marked
  have kept : (sourceBody s).count byteOrderMark ≤ cs.count byteOrderMark := by
    rw [← count_unifyLines cs, ← dropMark_cons cs, ← text]
    exact (trimBlankEnd_isPrefix _).sublist.count_le _
  have counts : (normalizeSource s).toList.count byteOrderMark =
      (sourceBody s).count byteOrderMark := by
    rw [toList_normalizeSource]
    split
    · rename_i empty
      rw [empty]
    · simp [byteOrderMark]
  rw [same, text, List.count_cons_self] at counts
  omega

/-! ## The normal form -/

/-- **Exactly the texts in normal form stay as they are.** -/
theorem normalizeSource_eq_self_iff : normalizeSource s = s ↔ IsNormalSource s := by
  constructor
  · intro same
    exact ⟨fun marked => normalizeSource_ne_self marked same, same ▸ notMem_normalizeSource s,
      same ▸ endsOnce_normalizeSource s⟩
  · intro ⟨unmarked, unified, ends⟩
    rcases ends with rfl | ⟨before, last, nonblank, text⟩
    · decide
    · rw [List.append_cons] at text
      have body : sourceBody s = before ++ [last] := by
        rw [sourceBody, dropMark_eq_self unmarked, unifyLines_eq_self unified, text,
          trimBlankEnd_append_of_blank isBlank_lineFeed, trimBlankEnd_concat nonblank]
      refine String.toList_injective ?_
      rw [toList_normalizeSource, body, if_neg (by simp), text]

/-- **What a text is brought to.**  It has no carriage return, and it is empty or ends in exactly
one line feed, behind a character that is not blank.  It has no byte order mark at its start, and
stays as it is when it is brought to normal form again, exactly if the text does not start with
two of them. -/
theorem normalizeSource_normal_unless_markedTwice (s : String) :
    '\r' ∉ (normalizeSource s).toList ∧ EndsOnce (normalizeSource s) ∧
      ((normalizeSource s).toList.head? ≠ some byteOrderMark ↔ ¬ IsMarkedTwice s) ∧
      (normalizeSource (normalizeSource s) = normalizeSource s ↔ ¬ IsMarkedTwice s) := by
  have unified := notMem_normalizeSource s
  have ends := endsOnce_normalizeSource s
  have unmarked : (normalizeSource s).toList.head? ≠ some byteOrderMark ↔ ¬ IsMarkedTwice s :=
    not_congr head?_normalizeSource
  refine ⟨unified, ends, unmarked, ?_⟩
  rw [normalizeSource_eq_self_iff, ← unmarked]
  exact ⟨fun normal => normal.unmarked, fun unmarked => ⟨unmarked, unified, ends⟩⟩

/-- Of two byte order marks the second is left, and is taken off the next time. -/
theorem normalizeSource_markedTwice : let s := "\uFEFF\uFEFFa"
    normalizeSource s = "\uFEFFa\n" ∧ normalizeSource (normalizeSource s) = "a\n" ∧
      ¬ (normalizeSource s).toList.head? ≠ some byteOrderMark ∧
      ¬ normalizeSource (normalizeSource s) = normalizeSource s := by
  decide +kernel

end CloudCanvas
