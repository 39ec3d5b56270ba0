import CloudCanvas.Text.Blank
import Mathlib.Data.List.DropRight

/-!
# Trimming

A text without the blanks at its end is a front of it, either nothing or one that ends in a
character that is not blank, and blanks that are put behind a text do not change it.

The main statements are `trimBlankEnd_append_of_blank` and `trimBlankEnd_concat`.
-/

namespace CloudCanvas

theorem isBlank_of_isDigit {c : Char} (h : c.isDigit = true) : isBlank c = false := by
  simp [Char.isDigit, isBlank, UInt32.le_iff_toNat_le] at h ⊢
  omega

theorem isAllBlank_iff {s : String} : isAllBlank s = true ↔ ∀ c ∈ s.toList, isBlank c = true :=
  List.all_eq_true

/-! ## The end of a text -/

variable {cs : List Char}

theorem trimBlankEnd_eq_nil_iff : trimBlankEnd cs = [] ↔ ∀ c ∈ cs, isBlank c = true :=
  List.rdropWhile_eq_nil_iff

theorem trimBlankEnd_isPrefix (cs : List Char) : trimBlankEnd cs <+: cs :=
  List.rdropWhile_prefix isBlank cs

theorem trimBlankEnd_cons {c : Char} (h : isBlank c = false) (cs : List Char) :
    trimBlankEnd (c :: cs) = c :: trimBlankEnd cs := by
  rw [trimBlankEnd, trimBlankEnd, List.reverse_cons, List.dropWhile_append]
  split
  · rename_i empty
    rw [List.isEmpty_iff.1 empty]
    simp [h]
  · simp

/-- A text that ends in a character which is not blank is not trimmed. -/
theorem trimBlankEnd_concat {c : Char} (h : isBlank c = false) (cs : List Char) :
    trimBlankEnd (cs ++ [c]) = cs ++ [c] :=
  List.rdropWhile_concat_neg isBlank cs c (by simp [h])

/-- **Blanks behind a text make no difference.** -/
theorem trimBlankEnd_append_of_blank {blanks : List Char} (h : ∀ c ∈ blanks, isBlank c = true)
    (cs : List Char) : trimBlankEnd (cs ++ blanks) = trimBlankEnd cs := by
  rw [trimBlankEnd, trimBlankEnd, List.reverse_append, List.dropWhile_append_of_pos]
  exact fun c mem => h c (List.mem_reverse.1 mem)

/-- What is left of a text is nothing or ends in a character that is not blank. -/
theorem trimBlankEnd_eq_nil_or_concat (cs : List Char) : trimBlankEnd cs = [] ∨
    ∃ before last, isBlank last = false ∧ trimBlankEnd cs = before ++ [last] := by
  rcases List.eq_nil_or_concat (trimBlankEnd cs) with empty | ⟨before, last, eq⟩
  · exact .inl empty
  · rw [List.concat_eq_append] at eq
    have kept : (trimBlankEnd cs).getLast? = some last := by rw [eq, List.getLast?_concat]
    exact .inr ⟨before, last, isBlank_getLast_trimBlankEnd kept, eq⟩

/-- What is trimmed is blank. -/
theorem exists_eq_trimBlankEnd_append (cs : List Char) :
    ∃ blanks, (∀ c ∈ blanks, isBlank c = true) ∧ cs = trimBlankEnd cs ++ blanks := by
  refine ⟨(cs.reverse.takeWhile isBlank).reverse, ?_, ?_⟩
  · intro c mem
    exact List.mem_takeWhile_imp (List.mem_reverse.1 mem)
  · rw [trimBlankEnd, ← List.reverse_append, List.takeWhile_append_dropWhile, List.reverse_reverse]

/-- A text that is not all blank ends in a character that is not, but for blanks behind it. -/
theorem exists_append_of_not_isAllBlank {s : String} (h : ¬ isAllBlank s = true) :
    ∃ text blanks last, s = text ++ blanks ∧ text.toList.getLast? = some last ∧
      isBlank last = false ∧ isAllBlank blanks = true := by
  obtain ⟨blanks, trailing, split⟩ := exists_eq_trimBlankEnd_append s.toList
  rcases trimBlankEnd_eq_nil_or_concat s.toList with empty | ⟨before, last, nonblank, kept⟩
  · exact absurd (isAllBlank_iff.2 (trimBlankEnd_eq_nil_iff.1 empty)) h
  · refine ⟨.ofList (before ++ [last]), .ofList blanks, last, ?_, by simp, nonblank, ?_⟩
    · rw [← kept, ← String.ofList_append, ← split, String.ofList_toList]
    · rw [isAllBlank_iff, String.toList_ofList]
      exact trailing

/-! ## Both ends -/

theorem head?_trimBlank {s : String} {c : Char} (h : isBlank c = false)
    (head : s.toList.head? = some c) : (trimBlank s).toList.head? = some c := by
  obtain ⟨cs, text⟩ : ∃ cs, s.toList = c :: cs := List.head?_eq_some_iff.1 head
  rw [trimBlank, String.toList_ofList, text, trimBlankStart,
    List.dropWhile_cons_of_neg (by simp [h]), trimBlankEnd_cons h]
  rfl

/-- A text without blanks is not trimmed. -/
theorem trimBlank_eq_self {s : String} (h : ∀ c ∈ s.toList, isBlank c = false) :
    trimBlank s = s := by
  have keep : ∀ cs : List Char, (∀ c ∈ cs, isBlank c = false) → cs.dropWhile isBlank = cs := by
    intro cs plain
    cases cs with
    | nil => rfl
    | cons c cs => exact List.dropWhile_cons_of_neg (by simp [plain c])
  rw [trimBlank, trimBlankStart, keep _ h, trimBlankEnd,
    keep _ fun c mem => h c (List.mem_reverse.1 mem), List.reverse_reverse, String.ofList_toList]

end CloudCanvas
