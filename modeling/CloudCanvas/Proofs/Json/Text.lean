import CloudCanvas.Json.Parser
import CloudCanvas.Proofs.Json.Scan

/-!
# Trees come back from their text

The text of a tree is scanned as a row of tokens that the tree alone fixes, and these
are read as the tree.

## Main definitions

* `Json.tokens`: the tokens of a tree.
* `Json.readable`: no part of a tree is unreadable.

The main statement is `Json.parse?_compact`.
-/

namespace CloudCanvas

namespace Json

mutual

/-- The tokens of a tree.  Like its text they do not say what was unreadable. -/
def tokens : Json → List Token
  | .array items => .openArray :: (tokensItems true items ++ [.closeArray])
  | .object members => .openObject :: (tokensMembers true members ++ [.closeObject])
  | .null => [.null]
  | .bool b => [.bool b]
  | .number n => [.number (some n)]
  | .string s => [.string (some s)]
  | .unreadable => [.null]

/-- The tokens of items parted by commas. -/
def tokensItems (first : Bool) : List Json → List Token
  | [] => []
  | item :: items => (if first then [] else [.comma]) ++ (item.tokens ++ tokensItems false items)

/-- The tokens of members parted by commas. -/
def tokensMembers (first : Bool) : List (String × Json) → List Token
  | [] => []
  | (key, value) :: members =>
    (if first then [] else [.comma]) ++ ([.string (some key), .colon] ++ (value.tokens ++
      tokensMembers false members))

end

mutual

/-- Whether no part of a tree is unreadable. -/
def readable : Json → Bool
  | .array items => readableItems items
  | .object members => readableMembers members
  | .unreadable => false
  | .null | .bool _ | .number _ | .string _ => true

/-- Whether all trees of a row are readable. -/
def readableItems : List Json → Bool
  | [] => true
  | item :: rest => item.readable && readableItems rest

/-- Whether the values of all members are readable. -/
def readableMembers : List (String × Json) → Bool
  | [] => true
  | (_, value) :: rest => value.readable && readableMembers rest

end

theorem readableItems_iff {items : List Json} :
    readableItems items = true ↔ ∀ item ∈ items, item.readable = true := by
  induction items with
  | nil => simp [readableItems]
  | cons item rest ih => simp [readableItems, ih]

theorem readableMembers_iff {members : List (String × Json)} :
    readableMembers members = true ↔ ∀ member ∈ members, member.2.readable = true := by
  induction members with
  | nil => simp [readableMembers]
  | cons member rest ih => simp [readableMembers, ih]

/-! ## Scanning -/

open Scan

variable {before : List Token} {rest : List Char}

/-- Punctuation is scanned as its token. -/
theorem run_mark {c : Char} (token : Token)
    (h : Scan.step .between c = some (.between, [token])) :
    run .between before (c :: rest) = run .between (token :: before) rest :=
  run_cons h

private theorem boundary_compactItems (items : List Json) (stop : Boundary rest) :
    Boundary (compactItems false items rest) := by
  cases items with
  | nil => exact stop
  | cons item items => exact boundary_cons (by decide)

private theorem boundary_compactMembers (members : List (String × Json))
    (stop : Boundary rest) : Boundary (compactMembers false members rest) := by
  cases members with
  | nil => exact stop
  | cons member members => exact boundary_cons (by decide)

/-- A scalar is scanned as its token. -/
theorem run_scalarChars {json : Json} {token : Token} (scalar : json.tokens = [token])
    (stop : Boundary rest) : run .between before (scalarChars json ++ rest) =
      run .between (token :: before) rest := by
  cases json with
  | array items => simp [tokens] at scalar
  | object members => simp [tokens] at scalar
  | null =>
      cases scalar
      exact run_word stop (by decide) (by simp) (by decide)
  | bool b =>
      cases scalar
      cases b with
      | true => exact run_word stop (by decide) (by simp) (by decide)
      | false => exact run_word stop (by decide) (by simp) (by decide)
  | number n =>
      cases scalar
      exact run_number n stop
  | string s =>
      cases scalar
      exact run_quoteChars s
  | unreadable =>
      cases scalar
      exact run_word stop (by decide) (by simp) (by decide)

mutual

/-- **The text of a tree is scanned as its tokens.** -/
theorem run_compactChars (json : Json) (before : List Token) {rest : List Char}
    (stop : Boundary rest) : run .between before (compactChars json rest) =
      run .between (json.tokens.reverse ++ before) rest := by
  cases json with
  | null => exact run_scalarChars rfl stop
  | bool b => exact run_scalarChars rfl stop
  | number n => exact run_scalarChars rfl stop
  | string s => exact run_scalarChars rfl stop
  | unreadable => exact run_scalarChars rfl stop
  | array items =>
      rw [compactChars, run_mark .openArray (by decide), run_compactItems items true _
        (boundary_cons (by decide)), run_mark .closeArray (by decide)]
      simp [tokens]
  | object members =>
      rw [compactChars, run_mark .openObject (by decide), run_compactMembers members
        true _ (boundary_cons (by decide)), run_mark .closeObject (by decide)]
      simp [tokens]

theorem run_compactItems (items : List Json) (first : Bool) (before : List Token)
    {rest : List Char} (stop : Boundary rest) :
    run .between before (compactItems first items rest) =
      run .between ((tokensItems first items).reverse ++ before) rest := by
  cases items with
  | nil => rfl
  | cons item items =>
      have later : ∀ before, run .between before (compactChars item (compactItems false items rest))
          = run .between ((item.tokens ++ tokensItems false items).reverse ++ before) rest := by
        intro before
        rw [run_compactChars item before (boundary_compactItems items stop),
          run_compactItems items false _ stop, List.reverse_append, List.append_assoc]
      cases first with
      | true => exact later before
      | false =>
          refine (run_mark .comma (by decide)).trans ((later _).trans ?_)
          simp [tokensItems]

theorem run_compactMembers (members : List (String × Json)) (first : Bool)
    (before : List Token) {rest : List Char} (stop : Boundary rest) :
    run .between before (compactMembers first members rest) =
      run .between ((tokensMembers first members).reverse ++ before) rest := by
  cases members with
  | nil => rfl
  | cons member members =>
      obtain ⟨key, value⟩ := member
      have later : ∀ before, run .between before (quoteChars key ++ ':' ::
          compactChars value (compactMembers false members rest)) =
          run .between (([Token.string (some key), .colon] ++
            (value.tokens ++ tokensMembers false members)).reverse ++ before) rest := by
        intro before
        rw [run_quoteChars, run_mark .colon (by decide),
          run_compactChars value _ (boundary_compactMembers members stop),
          run_compactMembers members false _ stop]
        simp
      cases first with
      | true => exact later before
      | false =>
          refine (run_mark .comma (by decide)).trans ((later _).trans ?_)
          simp [tokensMembers]

end

/-- The tokens of the text of a tree. -/
theorem tokens?_compact (json : Json) : tokens? json.compact = some json.tokens := by
  rw [tokens?, compact, String.toList_ofList, run_compactChars json [] boundary_nil]
  simp [run, Scan.finish?]

/-! ## Reading -/

/-- The first token of a tree ends no array. -/
private theorem exists_tokens_eq_cons (json : Json) :
    ∃ token later, json.tokens = token :: later ∧ token ≠ .closeArray := by
  cases json <;> exact ⟨_, _, rfl, by simp⟩

/-- A first item is read like any value. -/
private theorem step_firstItem {token : Token} (frames : List Frame) (h : token ≠ .closeArray) :
    Reading.step (.firstItem frames) token = Reading.step (.value (.item [] :: frames)) token := by
  cases token <;> first | rfl | exact absurd rfl h

private theorem foldlM_firstItem (json : Json) (later : List Token) (frames : List Frame) :
    (json.tokens ++ later).foldlM Reading.step (.firstItem frames) =
      (json.tokens ++ later).foldlM Reading.step (.value (.item [] :: frames)) := by
  obtain ⟨token, others, eq, ne⟩ := exists_tokens_eq_cons json
  rw [eq, List.cons_append, List.foldlM_cons, List.foldlM_cons, step_firstItem frames ne]

/-- Members as they have been read. -/
private def readMembers (members : List (String × Json)) : List (Option String × Json) :=
  members.map (fun member => (some member.1, member.2))

/-- An object whose keys are all readable keeps its members. -/
private theorem ofMembers_readable (members : List (String × Json)) :
    Reading.ofMembers (readMembers members) = .object members := by
  have all : (readMembers members).mapM
      (fun member => member.1.map (·, member.2)) = some members := by
    induction members with
    | nil => rfl
    | cons member members ih =>
        rw [readMembers, List.map_cons, List.mapM_cons]
        exact congrArg (Option.bind · _) ih
  rw [Reading.ofMembers, all]

mutual

/-- **The tokens of a tree are read as the tree**, whatever is open around it. -/
theorem foldlM_step_tokens (json : Json) (h : json.readable = true) (frames : List Frame) :
    json.tokens.foldlM Reading.step (.value frames) = some (.next json frames) := by
  cases json with
  | null => rfl
  | bool b => rfl
  | number n => rfl
  | string s => rfl
  | unreadable => cases h
  | array items =>
      rw [tokens, List.foldlM_cons]
      cases items with
      | nil => rfl
      | cons item items =>
          obtain ⟨hitem, hitems⟩ := Bool.and_eq_true_iff.1 h
          change ((item.tokens ++ tokensItems false items) ++ [Token.closeArray]).foldlM
            Reading.step (.firstItem frames) = _
          rw [List.append_assoc, foldlM_firstItem, List.foldlM_append,
            foldlM_step_tokens item hitem]
          exact foldlM_step_items items hitems item [] frames
  | object members =>
      rw [tokens, List.foldlM_cons]
      cases members with
      | nil => rfl
      | cons member members =>
          obtain ⟨key, value⟩ := member
          obtain ⟨hvalue, hmembers⟩ := Bool.and_eq_true_iff.1 h
          change ((value.tokens ++ tokensMembers false members) ++ [Token.closeObject]).foldlM
            Reading.step (.value (.member [] (some key) :: frames)) = _
          rw [List.append_assoc, List.foldlM_append, foldlM_step_tokens value hvalue]
          exact foldlM_step_members members hmembers key value [] frames

/-- The items behind one that has been read, and the end of the array. -/
theorem foldlM_step_items (items : List Json) (h : readableItems items = true) (last : Json)
    (before : List Json) (frames : List Frame) :
    (tokensItems false items ++ [Token.closeArray]).foldlM Reading.step
      (.next last (.item before :: frames)) =
        some (.next (.array (before.reverse ++ last :: items)) frames) := by
  cases items with
  | nil => simp [tokensItems, Reading.step, Reading.stepNext]
  | cons item items =>
      obtain ⟨hitem, hitems⟩ := Bool.and_eq_true_iff.1 h
      change ((item.tokens ++ tokensItems false items) ++ [Token.closeArray]).foldlM
        Reading.step (.value (.item (last :: before) :: frames)) = _
      rw [List.append_assoc, List.foldlM_append, foldlM_step_tokens item hitem]
      refine (foldlM_step_items items hitems item (last :: before) frames).trans ?_
      rw [List.reverse_cons, List.append_assoc, List.singleton_append]

/-- The members behind one that has been read, and the end of the object. -/
theorem foldlM_step_members (members : List (String × Json))
    (h : readableMembers members = true) (name : String) (last : Json)
    (before : List (String × Json)) (frames : List Frame) :
    (tokensMembers false members ++ [Token.closeObject]).foldlM Reading.step
      (.next last (.member (readMembers before) (some name) ::
        frames)) =
          some (.next (.object (before.reverse ++ (name, last) :: members)) frames) := by
  cases members with
  | nil =>
      have whole := ofMembers_readable ((name, last) :: before).reverse
      rw [readMembers, List.map_reverse] at whole
      change some (Reading.next (Reading.ofMembers
        (readMembers ((name, last) :: before)).reverse) frames) = _
      rw [readMembers, whole, List.reverse_cons]
  | cons member members =>
      obtain ⟨key, value⟩ := member
      obtain ⟨hvalue, hmembers⟩ := Bool.and_eq_true_iff.1 h
      change ((value.tokens ++ tokensMembers false members) ++ [Token.closeObject]).foldlM
        Reading.step (.value (.member (readMembers ((name, last) :: before)) (some key) ::
          frames)) = _
      rw [List.append_assoc, List.foldlM_append, foldlM_step_tokens value hvalue]
      refine (foldlM_step_members members hmembers key value ((name, last) :: before)
        frames).trans ?_
      rw [List.reverse_cons, List.append_assoc, List.singleton_append]

end

theorem ofTokens?_tokens {json : Json} (h : json.readable = true) :
    ofTokens? json.tokens = some json := by
  rw [ofTokens?, foldlM_step_tokens json h]
  rfl

/-- **A readable tree comes back from its text.** -/
theorem parse?_compact {json : Json} (h : json.readable = true) :
    parse? json.compact = some json := by
  rw [parse?, tokens?_compact]
  exact ofTokens?_tokens h

end Json

end CloudCanvas
