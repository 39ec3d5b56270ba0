import CloudCanvas.Dict
import CloudCanvas.Json

/-!
# JSON values

A value is what a tree means: objects are dictionaries, so the order of members
is lost and of two members with one key the later counts.  Among the trees with
one meaning a value keeps the one whose keys are sorted, so equal values are
equal trees.

## Main definitions

* `Value`: a canonical tree.
* `Value.ofJson?`: the value of a tree, none if some part of it is unreadable.
* `Value.object`, `Value.array` and the scalars: how values are built.
-/

namespace CloudCanvas

namespace Json

mutual

/-- Whether a tree has no unreadable part and all its keys are sorted. -/
def isCanonical : Json → Bool
  | .array items => isCanonicalItems items
  | .object members =>
    decide ((members.map Prod.fst).Pairwise (· < ·)) && isCanonicalMembers members
  | .unreadable => false
  | .null | .bool _ | .number _ | .string _ => true

/-- Whether all trees of a row are canonical. -/
def isCanonicalItems : List Json → Bool
  | [] => true
  | item :: rest => item.isCanonical && isCanonicalItems rest

/-- Whether the values of all members are canonical. -/
def isCanonicalMembers : List (String × Json) → Bool
  | [] => true
  | (_, value) :: rest => value.isCanonical && isCanonicalMembers rest

end

end Json

/-- A JSON value, kept as its canonical tree. -/
structure Value where
  json : Json
  canonical : json.isCanonical = true
deriving DecidableEq

namespace Value

/-- No value. -/
def null : Value := ⟨.null, rfl⟩

instance : Inhabited Value := ⟨null⟩

/-- A truth value. -/
def bool (b : Bool) : Value := ⟨.bool b, rfl⟩

/-- A number. -/
def number (n : Number) : Value := ⟨.number n, rfl⟩

/-- A text. -/
def string (s : String) : Value := ⟨.string s, rfl⟩

instance : Coe String Value := ⟨string⟩

private theorem isCanonicalItems_map_json (items : List Value) :
    Json.isCanonicalItems (items.map json) = true := by
  induction items with
  | nil => rfl
  | cons item rest ih => simp [Json.isCanonicalItems, item.canonical, ih]

/-- A row of values. -/
def array (items : List Value) : Value :=
  ⟨.array (items.map json), isCanonicalItems_map_json items⟩

/-- The members of a dictionary as trees. -/
def members (d : Dict Value) : List (String × Json) :=
  d.entries.map (fun entry => (entry.1, entry.2.json))

private theorem isCanonicalMembers_map_json (entries : List (String × Value)) :
    Json.isCanonicalMembers (entries.map (fun entry => (entry.1, entry.2.json))) = true := by
  induction entries with
  | nil => rfl
  | cons entry rest ih => simp [Json.isCanonicalMembers, entry.2.canonical, ih]

private theorem pairwise_keys_members (d : Dict Value) :
    ((members d).map Prod.fst).Pairwise (· < ·) := by
  have h : (members d).map Prod.fst = d.entries.map Prod.fst := by
    simp [members, Function.comp_def]
  rw [h, List.pairwise_map]
  exact d.sorted

/-- A dictionary of values. -/
def object (d : Dict Value) : Value :=
  ⟨.object (members d), by
    simp only [Json.isCanonical, Bool.and_eq_true, decide_eq_true_eq]
    exact ⟨pairwise_keys_members d, isCanonicalMembers_map_json _⟩⟩

/-- An object from a list of members; of two with one key the later counts. -/
def ofMembers (entries : List (String × Value)) : Value :=
  object (.ofList entries)

/-! ## Views -/

/-- Whether a value is `null`. -/
def isNull (v : Value) : Bool :=
  match v.json with
  | .null => true
  | _ => false

/-- The text of a value that is one. -/
def string? (v : Value) : Option String :=
  v.json.string?

/-- The truth value of a value that is one. -/
def bool? (v : Value) : Option Bool :=
  match v.json with
  | .bool b => some b
  | _ => none

/-! ## From trees -/

mutual

/-- The value of a tree. -/
def ofJson? : Json → Option Value
  | .null => some .null
  | .bool b => some (.bool b)
  | .number n => some (.number n)
  | .string s => some (.string s)
  | .array items => (ofItems? items).map .array
  | .object members => (ofMembers? ∅ members).map .object
  | .unreadable => none

/-- The values of a row of trees. -/
def ofItems? : List Json → Option (List Value)
  | [] => some []
  | item :: rest => do
    let value ← ofJson? item
    let values ← ofItems? rest
    some (value :: values)

/-- A dictionary with the values of a row of members put in one after another. -/
def ofMembers? (d : Dict Value) : List (String × Json) → Option (Dict Value)
  | [] => some d
  | (key, json) :: rest => do
    let value ← ofJson? json
    ofMembers? (d.insert key value) rest

end

end Value

end CloudCanvas
