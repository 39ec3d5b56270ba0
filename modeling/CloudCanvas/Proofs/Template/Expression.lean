import CloudCanvas.Template.Expression
import Mathlib.Data.List.Basic

/-!
# Reading expressions back

A string of a template is evaluated if it stands in square brackets of which the opening
one is not doubled.  A text that is written as a literal is never evaluated and means
itself, and a reader of calls takes exactly the strings that are written for a call, so a
reference leads back to the name that it was made from.

## Main definitions

* `isEvaluated`, `plainText`: how a string of a template is understood.
* `callText`, `readCall?`: a call with quoted arguments, and its reader.
* `readParameter?`, `readReference?`: the readers of the two references.

The main statements are `plainText_literal`, `isEvaluated_literal` and
`readCall?_eq_some_iff`.
-/

namespace CloudCanvas

/-! ## Literals -/

/-- Whether a string is evaluated. -/
def isEvaluated (s : String) : Bool :=
  isBracketed s && s.toList[1]? != some '['

/-- The text that a string stands for if it is not evaluated. -/
def plainText (s : String) : String :=
  if isBracketed s && s.toList[1]? == some '[' then String.ofList s.toList.tail else s

theorem isBracketed_iff {s : String} :
    isBracketed s = true ↔ s.toList.head? = some '[' ∧ s.toList.getLast? = some ']' := by
  simp [isBracketed]

/-- What is written for a text that looks like an expression has its bracket doubled. -/
private theorem literal_of_isBracketed {s : String} (h : isBracketed s = true) :
    isBracketed (literal s) = true ∧ (literal s).toList[1]? = some '[' ∧
      (literal s).toList.tail = s.toList := by
  have text : (literal s).toList = '[' :: s.toList := by
    simp [literal, h, String.toList_append]
  obtain ⟨head, last⟩ := isBracketed_iff.1 h
  rw [isBracketed_iff, text]
  refine ⟨⟨rfl, ?_⟩, by simpa [List.head?_eq_getElem?] using head, rfl⟩
  rw [List.getLast?_cons, last]
  rfl

/-- **A literal means the text that it was made from.** -/
@[simp] theorem plainText_literal (s : String) : plainText (literal s) = s := by
  by_cases h : isBracketed s = true
  · obtain ⟨bracketed, second, tail⟩ := literal_of_isBracketed h
    simp [plainText, bracketed, second, tail]
  · simp [plainText, literal, h]

/-- **A literal is not evaluated.** -/
@[simp] theorem isEvaluated_literal (s : String) : isEvaluated (literal s) = false := by
  by_cases h : isBracketed s = true
  · obtain ⟨-, second, -⟩ := literal_of_isBracketed h
    simp [isEvaluated, second]
  · simp [isEvaluated, literal, h]

/-! ## Quoted texts -/

/-- The text up to a closing quote, with its own quotes no longer doubled, and what stands
behind. -/
def closeQuote? : List Char → Option (List Char × List Char)
  | '\'' :: '\'' :: rest => (closeQuote? rest).map (fun read => ('\'' :: read.1, read.2))
  | '\'' :: rest => some ([], rest)
  | c :: rest => (closeQuote? rest).map (fun read => (c :: read.1, read.2))
  | [] => none

theorem length_of_closeQuote?_eq_some {cs text rest : List Char}
    (h : closeQuote? cs = some (text, rest)) : rest.length < cs.length := by
  fun_induction closeQuote? cs generalizing text rest with
  | case1 later ih =>
      obtain ⟨read, found, eq⟩ := Option.map_eq_some_iff.1 h
      cases eq
      have := ih found
      simp only [List.length_cons]
      omega
  | case2 later _ =>
      cases h
      simp
  | case3 c later _ _ ih =>
      obtain ⟨read, found, eq⟩ := Option.map_eq_some_iff.1 h
      cases eq
      have := ih found
      simp only [List.length_cons]
      omega
  | case4 => cases h

theorem doubleQuotes_cons (c : Char) (cs : List Char) :
    doubleQuotes (c :: cs) = (if c = '\'' then ['\'', '\''] else [c]) ++ doubleQuotes cs := rfl

/-- A quoted text is read up to its end, which is a quote that no other follows. -/
theorem closeQuote?_doubleQuotes (text : List Char) {rest : List Char}
    (h : rest.head? ≠ some '\'') :
    closeQuote? (doubleQuotes text ++ '\'' :: rest) = some (text, rest) := by
  induction text with
  | nil =>
      cases rest with
      | nil => rfl
      | cons c rest =>
          have other : c ≠ '\'' := by simpa using h
          simp [doubleQuotes, closeQuote?, other]
  | cons c text ih =>
      rw [doubleQuotes_cons]
      by_cases quote : c = '\''
      · simp [quote, closeQuote?, ih]
      · simp [quote, closeQuote?, ih]

theorem eq_doubleQuotes_of_closeQuote? {cs text rest : List Char}
    (h : closeQuote? cs = some (text, rest)) : cs = doubleQuotes text ++ '\'' :: rest := by
  fun_induction closeQuote? cs generalizing text rest with
  | case1 later ih =>
      obtain ⟨read, found, eq⟩ := Option.map_eq_some_iff.1 h
      cases eq
      rw [ih found, doubleQuotes_cons]
      rfl
  | case2 later _ =>
      cases h
      rfl
  | case3 c later _ other ih =>
      obtain ⟨read, found, eq⟩ := Option.map_eq_some_iff.1 h
      cases eq
      rw [ih found, doubleQuotes_cons, if_neg other]
      rfl
  | case4 => cases h

/-! ## Calls -/

/-- Quoted arguments up to the bracket that ends an expression. -/
def arguments? (cs : List Char) : Option (List String) :=
  match cs with
  | '\'' :: cs =>
    match _h : closeQuote? cs with
    | some (text, [')', ']']) => some [String.ofList text]
    | some (text, ',' :: ' ' :: rest) => (arguments? rest).map (String.ofList text :: ·)
    | _ => none
  | _ => none
termination_by cs.length
decreasing_by
  have := length_of_closeQuote?_eq_some _h
  simp only [List.length_cons] at this ⊢
  omega

/-- An expression that calls a function with texts. -/
def callText (function : String) (arguments : List String) : String :=
  "[" ++ function ++ "(" ++ (", ".intercalate (arguments.map quoted) ++ ")]")

/-- The arguments of a call of a function. -/
def readCall? (function s : String) : Option (List String) :=
  (s.toList.dropPrefix? ("[" ++ function ++ "(").toList).bind arguments?

/-- What is written for arguments and the end of the expression. -/
private def argumentText (arguments : List String) : List Char :=
  (", ".intercalate (arguments.map quoted) ++ ")]").toList

private theorem argumentText_singleton (text : String) :
    argumentText [text] = '\'' :: (doubleQuotes text.toList ++ '\'' :: [')', ']']) := by
  simp [argumentText, quoted, String.toList_append]

private theorem argumentText_cons_cons (first second : String) (others : List String) :
    argumentText (first :: second :: others) =
      '\'' :: (doubleQuotes first.toList ++ '\'' :: ',' :: ' ' ::
        argumentText (second :: others)) := by
  simp [argumentText, quoted, String.toList_append, String.toList_intercalate]

private theorem arguments?_argumentText {arguments : List String} (h : arguments ≠ []) :
    arguments? (argumentText arguments) = some arguments := by
  induction arguments with
  | nil => exact absurd rfl h
  | cons first others ih =>
      cases others with
      | nil =>
          rw [argumentText_singleton, arguments?, closeQuote?_doubleQuotes _ (by simp)]
          simp
      | cons second others =>
          rw [argumentText_cons_cons, arguments?, closeQuote?_doubleQuotes _ (by simp)]
          simp [ih]

private theorem eq_argumentText_of_arguments? {cs : List Char} {arguments : List String}
    (h : arguments? cs = some arguments) : arguments ≠ [] ∧ cs = argumentText arguments := by
  fun_induction arguments? cs generalizing arguments with
  | case1 cs text read =>
      cases h
      refine ⟨by simp, ?_⟩
      rw [argumentText_singleton, eq_doubleQuotes_of_closeQuote? read, String.toList_ofList]
  | case2 cs text rest read ih =>
      -- behind a comma stands another argument
      obtain ⟨others, later, rfl⟩ := Option.map_eq_some_iff.1 h
      obtain ⟨given, eq⟩ := ih later
      cases others with
      | nil => exact absurd rfl given
      | cons second others =>
          refine ⟨by simp, ?_⟩
          rw [argumentText_cons_cons, eq_doubleQuotes_of_closeQuote? read, eq,
            String.toList_ofList]
  | case3 => cases h
  | case4 => cases h

/-- **The reader takes exactly what is written for a call.** -/
theorem readCall?_eq_some_iff {function s : String} {arguments : List String} :
    readCall? function s = some arguments ↔
      arguments ≠ [] ∧ s = callText function arguments := by
  have written : callText function arguments =
      String.ofList (("[" ++ function ++ "(").toList ++ argumentText arguments) := by
    rw [argumentText, ← String.toList_append, String.ofList_toList]
    rfl
  rw [readCall?, Option.bind_eq_some_iff, written]
  constructor
  · intro ⟨rest, start, read⟩
    obtain ⟨front, eq, same⟩ := List.dropPrefix?_eq_some_iff.1 start
    obtain ⟨given, rfl⟩ := eq_argumentText_of_arguments? read
    rw [← eq_of_beq same, ← eq, String.ofList_toList]
    exact ⟨given, rfl⟩
  · intro ⟨given, eq⟩
    refine ⟨argumentText arguments, ?_, arguments?_argumentText given⟩
    rw [eq, String.toList_ofList]
    exact List.dropPrefix?_eq_some_iff.2 ⟨_, rfl, beq_self_eq_true _⟩

/-- Whether a string is evaluated and starts with a call of a function. -/
def IsCallOf (function s : String) : Prop :=
  isEvaluated s = true ∧ ("[" ++ function ++ "(").toList <+: s.toList

/-! ## References -/

/-- The parameter that a string refers to. -/
def readParameter? (s : String) : Option String :=
  match readCall? "parameters" s with
  | some [name] => some name
  | _ => none

/-- The type and the names of the resource that a string refers to. -/
def readReference? (s : String) : Option (String × List String) :=
  match readCall? "resourceId" s with
  | some (type :: names) => some (type, names)
  | _ => none

theorem parameterReference_eq (name : String) :
    parameterReference name = callText "parameters" [name] := by
  simp [parameterReference, callText, String.append_assoc]

theorem resourceReference_eq (type : String) {names : List String} (h : names ≠ []) :
    resourceReference type names = callText "resourceId" (type :: names) := by
  cases names with
  | nil => exact absurd rfl h
  | cons first others =>
      simp [resourceReference, callText, String.append_assoc]

/-- A string in brackets is evaluated if another character than a bracket follows the first. -/
private theorem isEvaluated_of_toList {s : String} {c : Char} {inner : List Char}
    (h : s.toList = '[' :: c :: (inner ++ [']'])) (other : c ≠ '[') : isEvaluated s = true := by
  have last : s.toList.getLast? = some ']' := by
    rw [h, ← List.cons_append, ← List.cons_append, List.getLast?_append]
    rfl
  have bracketed : isBracketed s = true := isBracketed_iff.2 ⟨by rw [h]; rfl, last⟩
  simp [isEvaluated, bracketed, h, other]

@[simp] theorem isEvaluated_locationExpression : isEvaluated locationExpression = true := by
  decide

@[simp] theorem isEvaluated_parameterReference (name : String) :
    isEvaluated (parameterReference name) = true := by
  have text : (parameterReference name).toList =
      '[' :: 'p' :: ("arameters(".toList ++ (quoted name).toList ++ [')'] ++ [']']) := by
    simp [parameterReference, String.toList_append]
  exact isEvaluated_of_toList text (by decide)

@[simp] theorem isEvaluated_resourceReference (type : String) (names : List String) :
    isEvaluated (resourceReference type names) = true := by
  have text : (resourceReference type names).toList =
      '[' :: 'r' :: ("esourceId(".toList ++ (quoted type).toList ++ ", ".toList ++
        (", ".intercalate (names.map quoted)).toList ++ [')'] ++ [']']) := by
    simp [resourceReference, String.toList_append]
  exact isEvaluated_of_toList text (by decide)

/-- The references and the place of deployment are three different things. -/
theorem parameterReference_ne_locationExpression (name : String) :
    parameterReference name ≠ locationExpression := by
  intro same
  have := congrArg String.toList same
  simp [parameterReference, locationExpression, String.toList_append] at this

theorem parameterReference_ne_resourceReference (name type : String) (names : List String) :
    parameterReference name ≠ resourceReference type names := by
  intro same
  have := congrArg String.toList same
  simp [parameterReference, resourceReference, String.toList_append] at this

theorem not_isCallOf_locationExpression : ¬ IsCallOf "resourceId" locationExpression := by
  rintro ⟨-, start⟩
  revert start
  decide

theorem not_isCallOf_parameterReference (name : String) :
    ¬ IsCallOf "resourceId" (parameterReference name) := by
  rintro ⟨-, start⟩
  simp [parameterReference, String.toList_append] at start

theorem isCallOf_resourceReference (type : String) (names : List String) :
    IsCallOf "resourceId" (resourceReference type names) := by
  refine ⟨isEvaluated_resourceReference type names, ?_⟩
  simp [resourceReference, String.toList_append]

/-- **A reference to a parameter leads back to its name.** -/
theorem readParameter?_eq_some_iff {s name : String} :
    readParameter? s = some name ↔ s = parameterReference name := by
  rw [readParameter?, parameterReference_eq]
  have exact : readCall? "parameters" s = some [name] ↔ _ := readCall?_eq_some_iff
  constructor
  · intro h
    split at h
    · rename_i read
      cases h
      exact (exact.1 read).2
    · cases h
  · intro h
    rw [exact.2 ⟨by simp, h⟩]

/-- **A reference to a resource leads back to its type and names.** -/
theorem readReference?_resourceReference (type : String) {names : List String}
    (h : names ≠ []) : readReference? (resourceReference type names) = some (type, names) := by
  rw [readReference?, readCall?_eq_some_iff.2 ⟨by simp, resourceReference_eq type h⟩]

end CloudCanvas
