import CloudCanvas.Json.Record
import CloudCanvas.Proofs.Dict

/-!
# What stands in a tree

The texts of a tree are the texts at its leaves, and a path of keys leads from an object
into what it holds.  An object that is made of members with different keys has the texts
of these members, and each key leads to its member.

## Main definitions

* `Json.texts`: the texts that stand somewhere in a tree, keys apart.
* `Json.at?`, `Json.textAt?`, `Json.itemsAt`: what a path of keys leads to.
-/

namespace CloudCanvas

namespace Json

mutual

/-- The texts that stand somewhere in a tree.  Keys do not count. -/
def texts : Json → List String
  | .string text => [text]
  | .array items => textsOfItems items
  | .object members => textsOfMembers members
  | .null | .bool _ | .number _ | .unreadable => []

/-- The texts of a row of trees. -/
def textsOfItems : List Json → List String
  | [] => []
  | item :: rest => item.texts ++ textsOfItems rest

/-- The texts of a row of members. -/
def textsOfMembers : List (String × Json) → List String
  | [] => []
  | (_, value) :: rest => value.texts ++ textsOfMembers rest

end

/-- The value that an object has for a key. -/
def field? (json : Json) (key : String) : Option Json :=
  match json with
  | .object members => members.lookup key
  | _ => none

/-- What a path of keys leads to. -/
def at? (json : Json) (path : List String) : Option Json :=
  path.foldlM field? json

/-- The text that a path leads to. -/
def textAt? (json : Json) (path : List String) : Option String :=
  (json.at? path).bind string?

/-- The items of the array that a path leads to, none if there is no array. -/
def itemsAt (json : Json) (path : List String) : List Json :=
  match json.at? path with
  | some (.array items) => items
  | _ => []

@[simp] theorem at?_nil (json : Json) : json.at? [] = some json := rfl

@[simp] theorem at?_cons (json : Json) (key : String) (path : List String) :
    json.at? (key :: path) = (json.field? key).bind (·.at? path) := rfl

@[simp] theorem string?_string (s : String) : (Json.string s).string? = some s := rfl

variable {text : String}

@[simp] theorem mem_texts_string {s : String} : text ∈ (Json.string s).texts ↔ text = s := by
  simp [texts]

@[simp] theorem not_mem_texts_bool {b : Bool} : text ∉ (Json.bool b).texts := by
  simp [texts]

@[simp] theorem mem_texts_array {items : List Json} :
    text ∈ (Json.array items).texts ↔ ∃ item ∈ items, text ∈ item.texts := by
  rw [texts]
  induction items with
  | nil => simp [textsOfItems]
  | cons item items ih => simp [textsOfItems, ih]

@[simp] theorem mem_texts_object {members : List (String × Json)} :
    text ∈ (Json.object members).texts ↔ ∃ member ∈ members, text ∈ member.2.texts := by
  rw [texts]
  induction members with
  | nil => simp [textsOfMembers]
  | cons member members ih => simp [textsOfMembers, ih]

end Json

namespace Value

variable {text key : String} {entries : List (String × Value)}

@[simp] theorem json_string (s : String) : (Value.string s).json = .string s := rfl

@[simp] theorem json_bool (b : Bool) : (Value.bool b).json = .bool b := rfl

@[simp] theorem json_array (items : List Value) :
    (Value.array items).json = .array (items.map json) := rfl

/-- The texts of an object made of members with different keys. -/
theorem mem_texts_ofMembers (nodup : (entries.map Prod.fst).Nodup) :
    text ∈ (ofMembers entries).json.texts ↔ ∃ entry ∈ entries, text ∈ entry.2.json.texts := by
  simp [ofMembers, object, members, ← Dict.mem_entries_ofList_iff nodup]

/-- What a key leads to in an object made of members with different keys. -/
theorem field?_ofMembers (nodup : (entries.map Prod.fst).Nodup) :
    (ofMembers entries).json.field? key = (entries.lookup key).map json := by
  have mapped : ∀ row : List (String × Value),
      (row.map (fun entry => (entry.1, entry.2.json))).lookup key = (row.lookup key).map json := by
    intro row
    induction row with
    | nil => rfl
    | cons entry row ih =>
        rw [List.map_cons, List.lookup_cons, List.lookup_cons, ih]
        by_cases same : key == entry.1 <;> simp [same]
  rw [ofMembers, object, Json.field?, members, mapped, ← Dict.get?_ofList nodup]
  rfl

end Value

end CloudCanvas
