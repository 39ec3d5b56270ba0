import CloudCanvas.Proofs.Json.Text

/-!
# Trees come back from their spread text

The spread text of a tree has the tokens of its compact text, since between tokens the
scanner passes over new lines and spaces.  So it is read as the same tree.

The main statements are `Json.tokens?_pretty` and `Json.parse?_pretty_eq`.
-/

namespace CloudCanvas

open Scan

variable {before : List Token} {rest : List Char}

namespace Scan

theorem run_space {c : Char} (space : isSpace c = true) :
    run .between before (c :: rest) = run .between before rest := by
  have step : Scan.step .between c = some (.between, []) := by
    unfold Scan.step start?
    rw [if_pos space]
  exact run_cons step

theorem run_spaces {spaces : List Char} (h : ∀ c ∈ spaces, isSpace c = true) :
    run .between before (spaces ++ rest) = run .between before rest := by
  induction spaces with
  | nil => rfl
  | cons c spaces ih =>
      obtain ⟨space, later⟩ := List.forall_mem_cons.1 h
      rw [List.cons_append, run_space space, ih later]

end Scan

namespace Json

theorem isSpace_of_mem_newLine {depth : ℕ} {c : Char} (h : c ∈ newLine depth) :
    isSpace c = true := by
  rcases List.mem_cons.1 h with rfl | mem
  · decide
  · obtain ⟨-, rfl⟩ := List.mem_replicate.1 mem
    decide

/-- A new line is passed over. -/
theorem run_newLine (depth : ℕ) :
    run .between before (newLine depth ++ rest) = run .between before rest :=
  run_spaces fun _ => isSpace_of_mem_newLine

theorem boundary_newLine (depth : ℕ) : Boundary (newLine depth ++ rest) :=
  boundary_cons (by decide)

private theorem boundary_prettyItems (depth : ℕ) (items : List Json) (stop : Boundary rest) :
    Boundary (prettyItems depth false items rest) := by
  cases items with
  | nil => exact stop
  | cons item items => exact boundary_cons (by decide)

private theorem boundary_prettyMembers (depth : ℕ) (members : List (String × Json))
    (stop : Boundary rest) : Boundary (prettyMembers depth false members rest) := by
  cases members with
  | nil => exact stop
  | cons member members => exact boundary_cons (by decide)

mutual

/-- **The spread text of a tree is scanned as its tokens**, at any depth. -/
theorem run_prettyChars (json : Json) (depth : ℕ) (before : List Token) {rest : List Char}
    (stop : Boundary rest) : run .between before (prettyChars depth json rest) =
      run .between (json.tokens.reverse ++ before) rest := by
  cases json with
  | null => exact run_scalarChars rfl stop
  | bool b => exact run_scalarChars rfl stop
  | number n => exact run_scalarChars rfl stop
  | string s => exact run_scalarChars rfl stop
  | unreadable => exact run_scalarChars rfl stop
  | array items =>
      rw [prettyChars]
      split
      · rename_i empty
        obtain rfl := List.isEmpty_iff.1 empty
        rw [run_mark .openArray (by decide), run_mark .closeArray (by decide)]
        rfl
      · rw [run_mark .openArray (by decide), run_prettyItems items _ true _ (boundary_newLine _),
          run_newLine, run_mark .closeArray (by decide)]
        simp [tokens]
  | object members =>
      rw [prettyChars]
      split
      · rename_i empty
        obtain rfl := List.isEmpty_iff.1 empty
        rw [run_mark .openObject (by decide), run_mark .closeObject (by decide)]
        rfl
      · rw [run_mark .openObject (by decide),
          run_prettyMembers members _ true _ (boundary_newLine _), run_newLine,
          run_mark .closeObject (by decide)]
        simp [tokens]

theorem run_prettyItems (items : List Json) (depth : ℕ) (first : Bool) (before : List Token)
    {rest : List Char} (stop : Boundary rest) :
    run .between before (prettyItems depth first items rest) =
      run .between ((tokensItems first items).reverse ++ before) rest := by
  cases items with
  | nil => rfl
  | cons item items =>
      have later : ∀ before, run .between before (newLine depth ++
          prettyChars depth item (prettyItems depth false items rest)) =
            run .between ((item.tokens ++ tokensItems false items).reverse ++ before) rest := by
        intro before
        rw [run_newLine, run_prettyChars item depth before (boundary_prettyItems depth items stop),
          run_prettyItems items depth false _ stop, List.reverse_append, List.append_assoc]
      cases first with
      | true => exact later before
      | false =>
          refine (run_mark .comma (by decide)).trans ((later _).trans ?_)
          simp [tokensItems]

theorem run_prettyMembers (members : List (String × Json)) (depth : ℕ) (first : Bool)
    (before : List Token) {rest : List Char} (stop : Boundary rest) :
    run .between before (prettyMembers depth first members rest) =
      run .between ((tokensMembers first members).reverse ++ before) rest := by
  cases members with
  | nil => rfl
  | cons member members =>
      obtain ⟨key, value⟩ := member
      have later : ∀ before, run .between before (newLine depth ++ (quoteChars key ++ ':' :: ' ' ::
          prettyChars depth value (prettyMembers depth false members rest))) =
            run .between (([Token.string (some key), .colon] ++
              (value.tokens ++ tokensMembers false members)).reverse ++ before) rest := by
        intro before
        rw [run_newLine, run_quoteChars, run_mark .colon (by decide), run_space (by decide),
          run_prettyChars value depth _ (boundary_prettyMembers depth members stop),
          run_prettyMembers members depth false _ stop]
        simp
      cases first with
      | true => exact later before
      | false =>
          refine (run_mark .comma (by decide)).trans ((later _).trans ?_)
          simp [tokensMembers]

end

/-- The spread text of a tree has the tokens of the tree. -/
theorem tokens?_pretty (json : Json) : tokens? json.pretty = some json.tokens := by
  rw [tokens?, pretty, String.toList_ofList, run_prettyChars json 0 [] boundary_nil]
  simp [run, Scan.finish?]

/-- **The spread text of a tree is read like its compact text.** -/
theorem parse?_pretty_eq (json : Json) : parse? json.pretty = parse? json.compact := by
  rw [parse?, parse?, tokens?_pretty, tokens?_compact]

end Json

end CloudCanvas
