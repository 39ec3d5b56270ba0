import CloudCanvas.Json.Value

/-!
# Records in JSON trees

A record is written as an object, in which fields that are not its own are passed
over and none of its own may come twice, or as an array of its fields in their
order.  The array may be short only of fields that have a default.

## Main definitions

* `Field`, `Json.record?`: the fields of a record and the parts of one that a
  tree holds.
* `Parts.required`, `Parts.optional`, `Parts.withDefault`: reading one part.
* `Json.within`: reading a tree that is not nested too deep.
-/

namespace CloudCanvas

/-- A field of a record, and whether an array may leave it off at its end. -/
structure Field where
  name : String
  hasDefault : Bool

/-- The fields that a tree gives of a record. -/
abbrev Parts := List (String × Json)

namespace Parts

/-- A part that must be there. -/
def required {α : Type} (parts : Parts) (name : String) (read : Json → Option α) : Option α := do
  let json ← parts.lookup name
  read json

/-- A part that may be missing or `null`. -/
def optional {α : Type} (parts : Parts) (name : String) (read : Json → Option α) :
    Option (Option α) :=
  match parts.lookup name with
  | none | some .null => some none
  | some json => (read json).map some

/-- A part that may be missing but not `null`. -/
def withDefault {α : Type} (parts : Parts) (name : String) (default : α)
    (read : Json → Option α) : Option α :=
  match parts.lookup name with
  | none => some default
  | some json => read json

end Parts

namespace Json

/-- The parts of a record that a tree holds. -/
def record? (fields : List Field) : Json → Option Parts
  | .object members =>
    let known := members.filter (fun member => fields.any (·.name == member.1))
    if (known.map Prod.fst).Nodup then some known else none
  | .array items =>
    if items.length ≤ fields.length ∧ (fields.drop items.length).all (·.hasDefault) then
      some ((fields.map (·.name)).zip items)
    else none
  | _ => none

/-- A row of which every item is read. -/
def items? {α : Type} (read : Json → Option α) : Json → Option (List α)
  | .array items => items.mapM read
  | _ => none

/-- A dictionary of which every member is read; of two with one key the later
counts. -/
def dict? {α : Type} (read : Json → Option α) : Json → Option (Dict α)
  | .object members =>
    (members.mapM (fun member => (read member.2).map (member.1, ·))).map Dict.ofList
  | _ => none

/-- A number as a double. -/
def double? : Json → Option Double
  | .number n => some n.toDouble
  | _ => none

/-- A dictionary of values. -/
def values? : Json → Option (Dict Value)
  | .object members => Value.ofMembers? ∅ members
  | _ => none

/-- A tree of at most a given depth, read in some way. -/
def within {α : Type} (room : Nat) (read : Json → Option α) (json : Json) : Option α :=
  if json.depth ≤ room then read json else none

/-- A row of texts as a tree. -/
def strings (texts : List String) : Json :=
  .array (texts.map .string)

/-- The members that a part adds to a record: none if it is left out. -/
def member? (name : String) (value : Option Json) : List (String × Json) :=
  match value with
  | some json => [(name, json)]
  | none => []

end Json

end CloudCanvas
