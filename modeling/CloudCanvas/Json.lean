import CloudCanvas.Json.Number

/-!
# JSON trees

A tree keeps what a JSON text says: the members of an object in their order,
repeated keys included.  A scalar that is well formed but stands for nothing, a
text with half of a surrogate pair or a number beyond all doubles, is
`unreadable`, and so is an object with such a key: a reader may pass it over but
not use it.

## Main definitions

* `Json`: the trees.
* `Json.depth`: how many arrays and objects are nested in each other.
-/

namespace CloudCanvas

/-- A JSON tree. -/
inductive Json where
  | null
  | bool (value : Bool)
  | number (value : Number)
  | string (value : String)
  | array (items : List Json)
  | object (members : List (String × Json))
  | unreadable

namespace Json

instance : Inhabited Json := ⟨null⟩

mutual

/-- Whether two trees are the same. -/
def decEq : (a b : Json) → Decidable (a = b)
  | .null, b => match b with
    | .null => isTrue rfl
    | .bool _ | .number _ | .string _ | .array _ | .object _ | .unreadable => isFalse nofun
  | .bool u, b => match b with
    | .bool v => decidable_of_iff (u = v) ⟨congrArg _, Json.bool.inj⟩
    | .null | .number _ | .string _ | .array _ | .object _ | .unreadable => isFalse nofun
  | .number u, b => match b with
    | .number v => decidable_of_iff (u = v) ⟨congrArg _, Json.number.inj⟩
    | .null | .bool _ | .string _ | .array _ | .object _ | .unreadable => isFalse nofun
  | .string u, b => match b with
    | .string v => decidable_of_iff (u = v) ⟨congrArg _, Json.string.inj⟩
    | .null | .bool _ | .number _ | .array _ | .object _ | .unreadable => isFalse nofun
  | .array u, b => match b with
    | .array v => match decEqItems u v with
      | isTrue h => isTrue (congrArg _ h)
      | isFalse h => isFalse fun e => h (Json.array.inj e)
    | .null | .bool _ | .number _ | .string _ | .object _ | .unreadable => isFalse nofun
  | .object u, b => match b with
    | .object v => match decEqMembers u v with
      | isTrue h => isTrue (congrArg _ h)
      | isFalse h => isFalse fun e => h (Json.object.inj e)
    | .null | .bool _ | .number _ | .string _ | .array _ | .unreadable => isFalse nofun
  | .unreadable, b => match b with
    | .unreadable => isTrue rfl
    | .null | .bool _ | .number _ | .string _ | .array _ | .object _ => isFalse nofun

/-- Whether two rows of trees are the same. -/
def decEqItems : (a b : List Json) → Decidable (a = b)
  | [], b => match b with
    | [] => isTrue rfl
    | _ :: _ => isFalse nofun
  | x :: xs, b => match b with
    | [] => isFalse nofun
    | y :: ys => match decEq x y, decEqItems xs ys with
      | isTrue h, isTrue hs => isTrue (h ▸ hs ▸ rfl)
      | isFalse h, _ => isFalse fun e => h (List.cons.inj e).1
      | _, isFalse hs => isFalse fun e => hs (List.cons.inj e).2

/-- Whether two rows of members are the same. -/
def decEqMembers : (a b : List (String × Json)) → Decidable (a = b)
  | [], b => match b with
    | [] => isTrue rfl
    | _ :: _ => isFalse nofun
  | (k, x) :: xs, b => match b with
    | [] => isFalse nofun
    | (l, y) :: ys => match decEq x y, decEqMembers xs ys with
      | isTrue h, isTrue hs =>
        decidable_of_iff (k = l)
          ⟨fun e => e ▸ h ▸ hs ▸ rfl, fun e => (Prod.mk.inj (List.cons.inj e).1).1⟩
      | isFalse h, _ => isFalse fun e => h (Prod.mk.inj (List.cons.inj e).1).2
      | _, isFalse hs => isFalse fun e => hs (List.cons.inj e).2

end

instance : DecidableEq Json := decEq

mutual

/-- How many arrays and objects are nested in each other, none for a scalar. -/
def depth : Json → Nat
  | .array items => depthItems items + 1
  | .object members => depthMembers members + 1
  | .null | .bool _ | .number _ | .string _ | .unreadable => 0

/-- The greatest depth of a row of trees. -/
def depthItems : List Json → Nat
  | [] => 0
  | item :: rest => max item.depth (depthItems rest)

/-- The greatest depth of a row of members. -/
def depthMembers : List (String × Json) → Nat
  | [] => 0
  | (_, value) :: rest => max value.depth (depthMembers rest)

end

/-- The text of a tree that is one. -/
def string? : Json → Option String
  | .string value => some value
  | _ => none

end Json

end CloudCanvas
