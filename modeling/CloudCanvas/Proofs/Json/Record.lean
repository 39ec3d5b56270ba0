import CloudCanvas.Json.Record
import CloudCanvas.Proofs.Dict
import CloudCanvas.Proofs.Fold
import CloudCanvas.Proofs.Json.Value

/-!
# Records come back from their members

A record is written field by field, with some fields left out.  It is read back from its
members, a part that was left out as what it is by default, and rows and dictionaries are
read back if what stands in them is.  Whatever is read has been read from some part.

## Main definitions

* `Json.recordMembers`: the members that are written for a record.

The main statements are `Json.record?_recordMembers`, `Json.lookup_recordMembers` and
`Json.dict?_map`.
-/

namespace CloudCanvas

namespace Json

/-! ## Members -/

/-- The members of a record, given for each field in turn; some may be left out. -/
def recordMembers (layout : List (String × Option Json)) : List (String × Json) :=
  layout.flatMap (fun part => member? part.1 part.2)

variable {layout : List (String × Option Json)} {name : String}

theorem recordMembers_sublist :
    ((recordMembers layout).map Prod.fst).Sublist (layout.map Prod.fst) := by
  induction layout with
  | nil => exact .slnil
  | cons part layout ih =>
      obtain ⟨name, value⟩ := part
      rw [recordMembers, List.flatMap_cons, List.map_append]
      cases value with
      | none => exact ih.cons _
      | some json => exact ih.cons_cons _

/-- The members of a record are its parts. -/
theorem record?_recordMembers (fields : List Field)
    (names : layout.map Prod.fst = fields.map (·.name))
    (nodup : (fields.map (·.name)).Nodup) :
    record? fields (.object (recordMembers layout)) = some (recordMembers layout) := by
  have sub : ((recordMembers layout).map Prod.fst).Sublist (fields.map (·.name)) :=
    names ▸ recordMembers_sublist
  have known : (recordMembers layout).filter (fun member => fields.any (·.name == member.1)) =
      recordMembers layout := by
    refine List.filter_eq_self.2 fun member mem => ?_
    obtain ⟨field, listed, name⟩ := List.mem_map.1 (sub.subset (List.mem_map_of_mem mem))
    exact List.any_eq_true.2 ⟨field, listed, by simpa using name⟩
  simp only [record?, known]
  rw [if_pos (nodup.sublist sub)]

/-- A part is what was given for its field. -/
theorem lookup_recordMembers (nodup : (layout.map Prod.fst).Nodup) :
    (recordMembers layout).lookup name = (layout.lookup name).join := by
  induction layout with
  | nil => rfl
  | cons part layout ih =>
      obtain ⟨key, value⟩ := part
      obtain ⟨fresh, nodup⟩ := List.nodup_cons.1 nodup
      rw [recordMembers, List.flatMap_cons, List.lookup_append]
      by_cases same : name = key
      · have absent : (recordMembers layout).lookup name = none := by
          rw [List.lookup_eq_none_iff]
          intro member mem
          have := recordMembers_sublist.subset (List.mem_map_of_mem mem)
          rw [bne_iff_ne]
          rintro rfl
          exact fresh (same ▸ this)
        rw [recordMembers] at absent
        rw [absent, Option.or_none]
        cases value <;> simp [member?, same]
      · have other : (member? key value).lookup name = none := by
          cases value <;> simp [member?, List.lookup_cons, beq_eq_false_iff_ne.2 same]
        have later := ih nodup
        rw [recordMembers] at later
        rw [other, Option.none_or, later]
        simp [List.lookup_cons, beq_eq_false_iff_ne.2 same]

theorem readable_recordMembers
    (h : ∀ part ∈ layout, ∀ json ∈ part.2, json.readable = true) :
    (object (recordMembers layout)).readable = true := by
  rw [readable, readableMembers_iff]
  intro member mem
  obtain ⟨part, listed, inside⟩ := List.mem_flatMap.1 mem
  obtain ⟨name, value⟩ := part
  cases value with
  | none => cases inside
  | some json =>
      obtain rfl := List.mem_singleton.1 inside
      exact h _ listed json rfl

/-! ## Rows and dictionaries -/

variable {α : Type} {read : Json → Option α}

theorem within_eq_some_iff {room : ℕ} {json : Json} {a : α} :
    within room read json = some a ↔ json.depth ≤ room ∧ read json = some a := by
  simp [within]

/-- A row is read back if each of its items is. -/
theorem items?_map {write : α → Json} {items : List α}
    (h : ∀ item ∈ items, read (write item) = some item) :
    items? read (.array (items.map write)) = some items := by
  rw [items?, mapM_eq_some_iff, List.forall₂_map_left_iff]
  exact List.forall₂_same.2 h

/-- A dictionary is read back if each of its values is. -/
theorem dict?_map {write : α → Json} {d : Dict α}
    (h : ∀ entry ∈ d.entries, read (write entry.2) = some entry.2) :
    dict? read (.object (d.entries.map (fun entry => (entry.1, write entry.2)))) = some d := by
  have entries : (d.entries.map (fun entry => (entry.1, write entry.2))).mapM
      (fun member => (read member.2).map (member.1, ·)) = some d.entries := by
    rw [mapM_eq_some_iff, List.forall₂_map_left_iff]
    exact List.forall₂_same.2 fun entry mem => by simp [h entry mem]
  rw [dict?, entries, Option.map_some, Dict.ofList_entries]

/-- If a row is read, each of its items is. -/
theorem exists_of_items? {items : List Json} {xs : List α}
    (h : items? read (.array items) = some xs) : ∀ item ∈ items, ∃ x, read item = some x := by
  intro item mem
  obtain ⟨x, -, read⟩ := exists_mem_of_forall₂ (mapM_eq_some_iff.1 h) mem
  exact ⟨x, read⟩

/-- Whatever stands in a row that is read is read from one of its items. -/
theorem forall_of_items? {P : α → Prop} {json : Json} {xs : List α}
    (h : items? read json = some xs) (each : ∀ item x, read item = some x → P x) :
    ∀ x ∈ xs, P x := by
  cases json with
  | array items =>
      intro x mem
      obtain ⟨item, -, read⟩ := exists_mem_of_forall₂ (mapM_eq_some_iff.1 h).flip mem
      exact each item x read
  | _ => cases h

/-- Whatever stands in a dictionary that is read is read from one of its members. -/
theorem forall_of_dict? {P : α → Prop} {json : Json} {d : Dict α} (h : dict? read json = some d)
    (each : ∀ value x, read value = some x → P x) : ∀ entry ∈ d.entries, P entry.2 := by
  cases json with
  | object members =>
      obtain ⟨entries, all, rfl⟩ := Option.map_eq_some_iff.1 h
      intro entry mem
      obtain ⟨member, -, one⟩ := exists_mem_of_forall₂ (mapM_eq_some_iff.1 all).flip
        (Dict.mem_of_mem_entries_ofList mem)
      obtain ⟨x, read, rfl⟩ := Option.map_eq_some_iff.1 one
      exact each member.2 x read
  | _ => cases h

end Json

/-! ## Parts -/

namespace Parts

variable {α : Type} {parts : Parts} {name : String} {read : Json → Option α}

/-- A part that is there is read. -/
theorem required_of_lookup {json : Json} (found : parts.lookup name = some json) :
    parts.required name read = read json := by
  rw [required, found]
  rfl

theorem required_text {text : String} (found : parts.lookup name = some (.string text)) :
    parts.required name Json.string? = some text :=
  required_of_lookup found

/-- A part that may be missing is read back. -/
theorem optional_map {value : Option α} (write : α → Json)
    (found : parts.lookup name = value.map write)
    (h : ∀ a ∈ value, write a ≠ .null ∧ read (write a) = some a) :
    parts.optional name read = some value := by
  rw [optional, found]
  cases value with
  | none => rfl
  | some a =>
      obtain ⟨notNull, same⟩ := h a rfl
      simp only [Option.map_some, same]

/-- A part that is left out only where it is what it would be by default is read back. -/
theorem withDefault_eq {default value : α} {json : Json} {skip : Bool}
    (found : parts.lookup name = if skip then none else some json)
    (skipped : skip = true → value = default) (h : skip = false → read json = some value) :
    parts.withDefault name default read = some value := by
  rw [withDefault, found]
  cases skip with
  | true => exact congrArg some (skipped rfl).symm
  | false => exact h rfl

/-- What is read of a part that may be missing is read from a tree that is not `null`. -/
theorem exists_of_optional {value : Option α} (h : parts.optional name read = some value) :
    ∀ a ∈ value, ∃ json, json ≠ .null ∧ read json = some a := by
  rintro a rfl
  rw [optional] at h
  split at h
  · cases h
  · cases h
  · rename_i json notNull found
    obtain ⟨_, same, ⟨⟩⟩ := Option.map_eq_some_iff.1 h
    exact ⟨json, notNull, same⟩

/-- What is read of a part with a default is the default or read from a tree. -/
theorem eq_or_exists_of_withDefault {default value : α}
    (h : parts.withDefault name default read = some value) :
    value = default ∨ ∃ json, read json = some value := by
  rw [withDefault] at h
  split at h
  · cases h
    exact .inl rfl
  · exact .inr ⟨_, h⟩

/-- Whatever stands in a row that may be left out is read from one of its items. -/
theorem forall_of_withDefault {xs : List α} {P : α → Prop}
    (h : parts.withDefault name [] (Json.items? read) = some xs)
    (each : ∀ item x, read item = some x → P x) : ∀ x ∈ xs, P x := by
  rcases eq_or_exists_of_withDefault h with rfl | ⟨json, row⟩
  · simp
  · exact Json.forall_of_items? row each

end Parts

end CloudCanvas
