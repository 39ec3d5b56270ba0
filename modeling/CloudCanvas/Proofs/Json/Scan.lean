import CloudCanvas.Json.Printer
import CloudCanvas.Proofs.Json.Number

/-!
# Scanning written scalars

A text that is written as a number, a word or a string is scanned as that one token,
whatever stands in front of it, if no letter and no character of a number follows.

## Main definitions

* `Boundary`: a text in front of which a token can end.

The main statements are `Scan.run_word`, `Scan.run_number` and `Scan.run_quoteChars`.
-/

namespace CloudCanvas

namespace Scan

variable {scan : Scan} {before : List Token} {rest : List Char}

/-- A text that does not go on with a word or a number. -/
def Boundary (rest : List Char) : Prop :=
  ∀ c ∈ rest.head?, isNumeric c = false ∧ ¬ ('a' ≤ c ∧ c ≤ 'z')

theorem boundary_nil : Boundary [] := by
  simp [Boundary]

theorem boundary_cons {c : Char} (h : isNumeric c = false ∧ ¬ ('a' ≤ c ∧ c ≤ 'z')) :
    Boundary (c :: rest) := by
  rintro _ ⟨⟩
  exact h

theorem run_cons {c : Char} {next : Scan} {found : List Token}
    (h : scan.step c = some (next, found)) :
    run scan before (c :: rest) = run next (found.reverse ++ before) rest := by
  rw [run, h]

/-- A token that the end of the text and every character behind it would show to be
whole is whole. -/
private theorem run_whole {token : Token} (finish : scan.finish? = some [token])
    (step : ∀ c ∈ rest.head?, scan.step c = startAfter? (some token) c) :
    run scan before rest = run .between (token :: before) rest := by
  cases rest with
  | nil =>
      rw [run, run, finish]
      rfl
  | cons c cs =>
      rw [run, run, step c rfl, Scan.step]
      cases h : start? c with
      | none => simp [startAfter?, h]
      | some next => simp [startAfter?, h]

/-! ## Words and numbers -/

private theorem run_letters {letters word : List Char} (h : ∀ c ∈ word, 'a' ≤ c ∧ c ≤ 'z') :
    run (.word letters) before (word ++ rest) =
      run (.word (word.reverse ++ letters)) before rest := by
  induction word generalizing letters with
  | nil => rfl
  | cons c cs ih =>
      have hc := (List.forall_mem_cons.1 h).1
      have step : Scan.step (.word letters) c = some (.word (c :: letters), []) := by
        rw [Scan.step, if_pos hc]
      rw [List.cons_append, run_cons step, List.reverse_nil, List.nil_append,
        ih (List.forall_mem_cons.1 h).2]
      simp

/-- A word is scanned as its token. -/
theorem run_word {c : Char} {cs : List Char} {token : Token} (stop : Boundary rest)
    (start : Scan.step .between c = some (.word [c], [])) (h : ∀ c ∈ cs, 'a' ≤ c ∧ c ≤ 'z')
    (word : wordToken? (c :: cs) = some token) :
    run .between before (c :: cs ++ rest) = run .between (token :: before) rest := by
  have whole : wordToken? (cs.reverse ++ [c]).reverse = some token := by simpa using word
  rw [List.cons_append, run_cons start, run_letters h]
  refine run_whole ?_ fun c hc => ?_
  · rw [finish?, whole, Option.map_some]
  · rw [Scan.step, if_neg (stop c hc).2, whole]

private theorem run_numerics {chars more : List Char} (h : ∀ c ∈ more, isNumeric c = true) :
    run (.number chars) before (more ++ rest) =
      run (.number (more.reverse ++ chars)) before rest := by
  induction more generalizing chars with
  | nil => rfl
  | cons c cs ih =>
      have hc := (List.forall_mem_cons.1 h).1
      have step : Scan.step (.number chars) c = some (.number (c :: chars), []) := by
        rw [Scan.step, if_pos hc]
      rw [List.cons_append, run_cons step, List.reverse_nil, List.nil_append,
        ih (List.forall_mem_cons.1 h).2]
      simp

private theorem start?_numeric {c : Char} (first : c.isDigit = true ∨ c = '-') :
    Scan.step .between c = some (.number [c], []) := by
  rcases first with digit | rfl
  · have ne : ∀ d : Char, d.isDigit = false → (c == d) = false := by
      intro d other
      rw [beq_eq_false_iff_ne]
      rintro rfl
      rw [digit] at other
      cases other
    have notSpace : isSpace c = false := by
      simp only [isSpace, ne ' ' (by decide), ne '\t' (by decide), ne '\n' (by decide),
        ne '\r' (by decide), Bool.or_false]
    unfold Scan.step start?
    rw [if_neg (by simp [notSpace]), if_neg (by simp [ne '"' (by decide)]),
      if_pos (by simp [digit])]
  · decide

/-- A written number is scanned as that number. -/
theorem run_number (number : Number) (stop : Boundary rest) :
    run .between before (number.text.toList ++ rest) =
      run .between (.number (some number) :: before) rest := by
  obtain ⟨n, valid, chars, value⟩ := number.exists_numeral
  obtain ⟨c, cs, hcons, first⟩ := n.exists_chars_eq_cons valid
  have numeric := n.isNumeric_of_mem_chars valid
  rw [← chars, hcons]
  rw [hcons] at numeric
  have whole : numberToken? (cs.reverse ++ [c]).reverse = some (.number (some number)) := by
    rw [List.reverse_append, List.reverse_reverse, List.reverse_singleton, List.singleton_append,
      ← hcons, numberToken?, n.read?_chars valid, Option.map_some, value]
  rw [List.cons_append, run_cons (start?_numeric first),
    run_numerics (List.forall_mem_cons.1 numeric).2]
  refine run_whole ?_ fun c hc => ?_
  · rw [finish?, whole, Option.map_some]
  · rw [Scan.step, (stop c hc).1, whole]
    rfl

/-! ## Strings -/

private theorem hexValue?_hexDigit (n : ℕ) : hexValue? (Json.hexDigit n) = some (n % 16) := by
  have digits : ∀ m < 16, hexValue? (Nat.digitChar m) = some m := by decide
  exact digits (n % 16) (Nat.mod_lt _ (by decide))

/-- The escape with four digits of a control character stands for it. -/
private theorem run_code {c : Char} (pieces : List Piece) (h : c < ' ') :
    run (.text pieces) before
        (['\\', 'u', '0', '0', Json.hexDigit (c.toNat / 16), Json.hexDigit c.toNat] ++ rest) =
      run (.text (.whole c :: pieces)) before rest := by
  have small : c.toNat < 32 := h
  have zero : hexValue? '0' = some 0 := by decide
  have value : (0 * 16 + c.toNat / 16 % 16) * 16 + c.toNat % 16 = c.toNat := by omega
  have code : Piece.ofCode c.toNat = .whole c := by
    rw [Piece.ofCode, if_neg (by omega), Char.ofNat_toNat]
  simp [run, Scan.step, zero, hexValue?_hexDigit]
  simp only [Nat.zero_mul, Nat.zero_add] at value
  rw [value, code]

/-- A character comes back from the way it is written in a string. -/
private theorem run_escapeChar (c : Char) (pieces : List Piece) :
    run (.text pieces) before (Json.escapeChar c ++ rest) =
      run (.text (.whole c :: pieces)) before rest := by
  unfold Json.escapeChar
  split
  case h_8 notQuote notBackslash _ _ _ _ _ =>
    split
    · exact run_code pieces ‹_›
    · have step : Scan.step (.text pieces) c = some (.text (.whole c :: pieces), []) := by
        simp_all [Scan.step]
      exact run_cons step
  all_goals rfl

private theorem run_escapeChars (cs : List Char) (pieces : List Piece) :
    run (.text pieces) before (cs.flatMap Json.escapeChar ++ rest) =
      run (.text ((cs.map Piece.whole).reverse ++ pieces)) before rest := by
  induction cs generalizing pieces with
  | nil => rfl
  | cons c cs ih =>
      rw [List.flatMap_cons, List.append_assoc, run_escapeChar, ih]
      simp

private theorem chars?_map_whole (cs : List Char) : Piece.chars? (cs.map .whole) = some cs := by
  induction cs with
  | nil => rfl
  | cons c cs ih => simp [Piece.chars?, ih]

/-- A quoted string is scanned as that string. -/
theorem run_quoteChars (s : String) :
    run .between before (Json.quoteChars s ++ rest) =
      run .between (.string (some s) :: before) rest := by
  have token : textToken ((s.toList.map Piece.whole).reverse ++ []).reverse = .string (some s) := by
    rw [List.append_nil, List.reverse_reverse, textToken, chars?_map_whole, Option.map_some,
      String.ofList_toList]
  have opening : Scan.step .between '"' = some (.text [], []) := by decide
  have closing : Scan.step (.text ((s.toList.map Piece.whole).reverse ++ [])) '"' =
      some (.between, [.string (some s)]) := by
    rw [← token]
    rfl
  rw [Json.quoteChars, List.cons_append, run_cons opening, List.append_assoc, run_escapeChars,
    List.singleton_append, run_cons closing]
  rfl

end Scan

end CloudCanvas
