import CloudCanvas.Proofs.Template.Parameters

/-!
# Batches of parameters

Batches of parameters that are entered one after another come to what all of them come to when
they are entered at once.  Of the definitions of a name the last counts.  A name is replaced each
time it is entered while it is there, so everything that is entered is either a new key or a
replaced name.

## Main definitions

* `Template.addBatches`: entering batches one after another.
* `repeats`: the names of a row that have come before.
* `Template.EntersBatches`: what entering batches comes to.

The main statement is `Template.entersBatches_addBatches`.
-/

namespace CloudCanvas

/-- The names of a row that are known when their turn comes: from the start, or because they
stand earlier in the row. -/
def repeats (known : String → Bool) (names : List String) : List String :=
  (names.zipIdx.filter fun (name, place) => known name || (names.take place).contains name).map
    Prod.fst

theorem repeats_cons (known : String → Bool) (name : String) (names : List String) :
    repeats known (name :: names) = (if known name then [name] else []) ++
      repeats (fun other => known other || other == name) names := by
  have later : ∀ entry : String × ℕ,
      (known entry.1 || ((name :: names).take (entry.2 + 1)).contains entry.1) =
        (known entry.1 || entry.1 == name || (names.take entry.2).contains entry.1) := by
    intro entry
    rw [List.take_succ_cons, List.contains_cons, Bool.or_assoc]
  rw [repeats, List.zipIdx_cons, List.zipIdx_succ, List.filter_cons, List.filter_map, repeats]
  simp only [List.take_zero, List.contains_nil, Bool.or_false, Function.comp_def, later]
  by_cases here : known name = true <;> simp [here]

namespace Template

variable {t : Template} {batch later : List (String × ParameterDefinition)}

/-! ## One batch -/

theorem contains_insert_eq (parameters : Dict ParameterDefinition) (name : String)
    (definition : ParameterDefinition) : (parameters.insert name definition).contains =
      fun other => parameters.contains other || other == name := by
  funext other
  rw [Bool.eq_iff_iff, Dict.contains_insert, Bool.or_eq_true, beq_iff_eq, or_comm]

/-- The names that are replaced are those that repeat what is there. -/
theorem snd_foldl_enterParameter (parameters : Dict ParameterDefinition) :
    (batch.foldl enterParameter (parameters, [])).2 =
      repeats parameters.contains (batch.map Prod.fst) := by
  induction batch generalizing parameters with
  | nil => rfl
  | cons entry batch ih =>
      rw [List.foldl_cons, enterParameter, foldl_enterParameter, ih, contains_insert_eq,
        List.map_cons, repeats_cons]
      rfl

/-- A batch that is entered: the names that repeat what is there, and the template. -/
theorem addParameters_eq (t : Template) (batch : List (String × ParameterDefinition)) :
    t.addParameters batch = (repeats t.parameters.contains (batch.map Prod.fst), { t with
      parameters := batch.foldl (fun d entry => d.insert entry.1 entry.2) t.parameters }) := by
  rw [addParameters, ← snd_foldl_enterParameter, ← fst_foldl_enterParameter []]

theorem foldl_enterParameter_eq (t : Template) (batch : List (String × ParameterDefinition)) :
    batch.foldl enterParameter (t.parameters, []) =
      ((t.addParameters batch).2.parameters, (t.addParameters batch).1) := rfl

theorem addParameters_append : t.addParameters (batch ++ later) =
    ((t.addParameters batch).1 ++ ((t.addParameters batch).2.addParameters later).1,
      ((t.addParameters batch).2.addParameters later).2) := by
  rw [addParameters, List.foldl_append, foldl_enterParameter]
  rfl

theorem contains_addParameters (t : Template) (batch : List (String × ParameterDefinition)) :
    (t.addParameters batch).2.parameters.contains =
      fun name => t.parameters.contains name || (batch.map Prod.fst).contains name := by
  funext name
  rw [addParameters_eq, Bool.eq_iff_iff, Dict.contains_foldl_insert, Bool.or_eq_true,
    List.contains_iff_mem]

/-! ## What is there and what was replaced -/

/-- How many keys there are and how many names were replaced. -/
def entered (state : Dict ParameterDefinition × List String) : ℕ :=
  state.1.size + state.2.length

/-- A parameter that is entered is a new key or replaces a name. -/
theorem entered_enterParameter (state : Dict ParameterDefinition × List String)
    (parameter : String × ParameterDefinition) :
    entered (enterParameter state parameter) = entered state + 1 := by
  rw [entered, entered, enterParameter]
  dsimp only
  rw [Dict.size_insert]
  split
  · rw [List.length_append, List.length_singleton, Nat.add_assoc]
  · exact Nat.add_right_comm _ _ _

theorem entered_foldl (batch : List (String × ParameterDefinition))
    (state : Dict ParameterDefinition × List String) :
    entered (batch.foldl enterParameter state) = entered state + batch.length := by
  induction batch generalizing state with
  | nil => rfl
  | cons parameter batch ih =>
      rw [List.foldl_cons, ih, entered_enterParameter, List.length_cons]
      omega

/-! ## Batches -/

/-- Enter batches one after another: the names that each of them replaced, and the template. -/
def addBatches (t : Template) :
    List (List (String × ParameterDefinition)) → List (List String) × Template
  | [] => ([], t)
  | batch :: batches =>
    let (replaced, next) := t.addParameters batch
    let (later, last) := next.addBatches batches
    (replaced :: later, last)

/-- What entering batches one after another comes to. -/
structure EntersBatches (t : Template) (batches : List (List (String × ParameterDefinition)))
    (replaced : List (List String)) (u : Template) : Prop where
  /-- Nothing but the parameters changes. -/
  others : u = { t with parameters := u.parameters }
  /-- The last definition of a name counts. -/
  get?_of_last {before name definition after} :
    batches.flatten = before ++ (name, definition) :: after → name ∉ after.map Prod.fst →
      u.parameters.get? name = some definition
  /-- A name that is not entered keeps its definition, if it has one. -/
  get?_of_notMem {name} : name ∉ batches.flatten.map Prod.fst →
    u.parameters.get? name = t.parameters.get? name
  /-- Entered at once the batches come to the same. -/
  atOnce : t.addParameters batches.flatten = (replaced.flatten, u)
  /-- There is a list of replaced names for each batch. -/
  length_eq : replaced.length = batches.length
  /-- A batch replaces the names in it that were there before or stand earlier in it. -/
  getElem?_replaced {before batch after} : batches = before ++ batch :: after →
    replaced[before.length]? = some (repeats
      (fun name => t.parameters.contains name || (before.flatten.map Prod.fst).contains name)
      (batch.map Prod.fst))
  /-- So all names that are entered while they are there are replaced, in their order. -/
  flatten_replaced : replaced.flatten =
    repeats t.parameters.contains (batches.flatten.map Prod.fst)
  /-- A name is replaced as often as it is entered, but for the one time that it is new. -/
  timesEntered_eq {name} : timesEntered name (u.parameters, replaced.flatten) =
    timesEntered name (t.parameters, []) + (batches.flatten.map Prod.fst).count name
  /-- Whatever is entered is a new key or replaces a name. -/
  size_eq : u.parameters.size + replaced.flatten.length =
    t.parameters.size + batches.flatten.length

variable {batches : List (List (String × ParameterDefinition))}

theorem addBatches_cons : t.addBatches (batch :: batches) =
    ((t.addParameters batch).1 :: ((t.addParameters batch).2.addBatches batches).1,
      ((t.addParameters batch).2.addBatches batches).2) := rfl

theorem addParameters_flatten : t.addParameters batches.flatten =
    ((t.addBatches batches).1.flatten, (t.addBatches batches).2) := by
  induction batches generalizing t with
  | nil => rfl
  | cons batch batches ih =>
      rw [List.flatten_cons, addParameters_append, ih, addBatches_cons, List.flatten_cons]

theorem length_addBatches : (t.addBatches batches).1.length = batches.length := by
  induction batches generalizing t with
  | nil => rfl
  | cons batch batches ih => rw [addBatches_cons, List.length_cons, ih, List.length_cons]

/-- The names that one of the batches replaces. -/
theorem getElem?_addBatches {before after : List (List (String × ParameterDefinition))} :
    (t.addBatches (before ++ batch :: after)).1[before.length]? = some (repeats
      (fun name => t.parameters.contains name || (before.flatten.map Prod.fst).contains name)
      (batch.map Prod.fst)) := by
  induction before generalizing t with
  | nil =>
      rw [List.nil_append, addBatches_cons, addParameters_eq]
      simp
  | cons first before ih =>
      have known : (fun name => (t.addParameters first).2.parameters.contains name ||
            (before.flatten.map Prod.fst).contains name) = fun name =>
          t.parameters.contains name || ((first :: before).flatten.map Prod.fst).contains name := by
        funext name
        rw [contains_addParameters, Bool.eq_iff_iff]
        simp [or_assoc]
      rw [List.cons_append, addBatches_cons, List.length_cons, List.getElem?_cons_succ, ih, known]

/-- **Entering batches of parameters.**  The last definition of a name counts, a name is replaced
each time it is entered while it is there, all batches at once come to the same, and what is
entered is accounted for. -/
theorem entersBatches_addBatches (t : Template)
    (batches : List (List (String × ParameterDefinition))) :
    t.EntersBatches batches (t.addBatches batches).1 (t.addBatches batches).2 := by
  have atOnce : t.addParameters batches.flatten = _ := addParameters_flatten
  have whole := addParameters_eq t batches.flatten
  rw [atOnce, Prod.mk.injEq] at whole
  obtain ⟨replaced, final⟩ := whole
  have state := foldl_enterParameter_eq t batches.flatten
  rw [atOnce] at state
  constructor
  case atOnce => exact atOnce
  case length_eq => exact length_addBatches
  case flatten_replaced => exact replaced
  case others => rw [final]
  case get?_of_last =>
    intro before name definition after split last
    rw [final]
    exact Dict.get?_foldl_insert_of_last split last
  case get?_of_notMem =>
    intro name absent
    rw [final]
    exact Dict.get?_foldl_insert_of_notMem absent
  case getElem?_replaced =>
    intro before batch after split
    rw [split]
    exact getElem?_addBatches
  case timesEntered_eq =>
    intro name
    rw [← state]
    exact timesEntered_foldl _
  case size_eq =>
    have sizes := entered_foldl batches.flatten (t.parameters, [])
    rw [state] at sizes
    exact sizes

end Template

end CloudCanvas
