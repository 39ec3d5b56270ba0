import CloudCanvas.Proofs.Json.Pretty
import CloudCanvas.Proofs.Json.Record
import CloudCanvas.Template.Codec

/-!
# Templates come back from their text

The writer leaves out what a parameter or a resource does not have and never says which
element a resource is of; it knows no bound on nesting.  The reader takes `null` for a part
that is missing and does bound the nesting.  So a template is read back, without its elements,
if it has no `null` that would be lost and is nowhere too deep, and this is so of whatever has
been read from a text, in whichever of the forms that a text may have.

## Main definitions

* `Template.Legible`: no part of a template is lost or too deep when it is written.
* `Template.withoutElements`: a template that does not say where its resources are from.

The main statements are `Template.parse?_text`, `Template.legible_of_parse?` and
`Template.parse?_text_of_parse?`.
-/

namespace CloudCanvas

/-! ## Values -/

namespace Value

theorem readable_json (v : Value) : v.json.readable = true :=
  Json.readable_of_isCanonical v.json v.canonical

theorem json_eq_null_iff {v : Value} : v.json = .null ↔ v = null :=
  ⟨fun h => Value.ext h, congrArg json⟩

theorem isNull_iff {v : Value} : v.isNull = true ↔ v = null := by
  rw [← json_eq_null_iff, isNull]
  cases v.json <;> simp

variable {room : ℕ} {v : Value}

/-- A value for which there is room is read back. -/
theorem within_json (h : v.json.depth ≤ room) : Json.within room ofJson? v.json = some v :=
  Json.within_eq_some_iff.2 ⟨h, v.ofJson?_json⟩

theorem depth_le_of_within {json : Json} (h : Json.within room ofJson? json = some v) :
    v.json.depth ≤ room := by
  obtain ⟨depth, read⟩ := Json.within_eq_some_iff.1 h
  exact (depth_le_of_ofJson? json read).trans depth

/-- Only `null` means `null`. -/
theorem ne_null_of_within {json : Json} (h : Json.within room ofJson? json = some v)
    (ne : json ≠ .null) : v ≠ null := by
  rintro rfl
  obtain ⟨-, read⟩ := Json.within_eq_some_iff.1 h
  cases json with
  | null => exact ne rfl
  | array items =>
      obtain ⟨_, -, eq⟩ := Option.map_eq_some_iff.1 read
      cases congrArg Value.json eq
  | object members =>
      obtain ⟨_, -, eq⟩ := Option.map_eq_some_iff.1 read
      cases congrArg Value.json eq
  | unreadable => cases read
  | _ => cases congrArg Value.json (Option.some.inj read)

end Value

namespace Parts

variable {parts : Parts} {name : String} {value : Option Value} {room : ℕ}

/-- A value that may be missing is read back if it is not `null` and there is room for it. -/
theorem optional_value (found : parts.lookup name = value.map (·.json))
    (h : ∀ v ∈ value, v ≠ .null ∧ v.json.depth ≤ room) :
    parts.optional name (Json.within room Value.ofJson?) = some value :=
  optional_map (·.json) found fun v mem =>
    ⟨mt Value.json_eq_null_iff.1 (h v mem).1, Value.within_json (h v mem).2⟩

/-- A value that has been read is not `null`, and there is room for it. -/
theorem of_optional_value (h : parts.optional name (Json.within room Value.ofJson?) = some value) :
    ∀ v ∈ value, v ≠ .null ∧ v.json.depth ≤ room := by
  intro v mem
  obtain ⟨json, ne, read⟩ := exists_of_optional h v mem
  exact ⟨Value.ne_null_of_within read ne, Value.depth_le_of_within read⟩

end Parts

/-! ## Parameters -/

theorem ParameterType.choice?_name (type : ParameterType) :
    Json.choice? all name (.string type.name) = some type := by
  cases type <;> rfl

namespace ParameterDefinition

/-- No value of a parameter is lost or too deep when it is written: the default is not `null`,
which is read as no default. -/
structure Legible (d : ParameterDefinition) : Prop where
  default : ∀ value ∈ d.defaultValue, value ≠ .null ∧ value.json.depth ≤ 124
  allowed : ∀ value ∈ d.allowedValues, value.json.depth ≤ 123

/-- A description as metadata. -/
def metadata (description : String) : Json :=
  .object [("description", .string description)]

theorem ofMetadata?_metadata (description : String) :
    ofMetadata? (metadata description) = some description := by
  have members : metadata description =
      .object (Json.recordMembers [("description", some (.string description))]) := rfl
  rw [ofMetadata?, members, Json.record?_recordMembers _ rfl (by decide)]
  rfl

/-- What is written for each field of a parameter. -/
def layout (d : ParameterDefinition) : List (String × Option Json) :=
  [("type", some (.string d.type.name)), ("defaultValue", d.defaultValue.map (·.json)),
    ("allowedValues",
      if d.allowedValues.isEmpty then none else some (.array (d.allowedValues.map (·.json)))),
    ("metadata", d.description.map metadata)]

variable {d : ParameterDefinition}

theorem json_eq (d : ParameterDefinition) : d.json = .object (Json.recordMembers d.layout) := by
  rw [json, layout, Json.recordMembers]
  simp only [List.flatMap_cons, List.flatMap_nil, List.append_assoc, List.append_nil]
  rfl

theorem readable_json (d : ParameterDefinition) : d.json.readable = true := by
  have allowed : Json.readableItems (d.allowedValues.map (·.json)) = true :=
    Json.readableItems_iff.2 (List.forall_mem_map.2 fun value _ => value.readable_json)
  rw [json_eq]
  refine Json.readable_recordMembers ?_
  simp only [layout, List.forall_mem_cons, Option.forall_mem_map]
  refine ⟨by simp [Json.readable], fun value _ => value.readable_json, ?_, fun _ _ => rfl, by simp⟩
  split <;> simp [Json.readable, allowed]

/-- **A legible parameter comes back from its tree.** -/
theorem ofJson?_json (legible : d.Legible) : ofJson? d.json = some d := by
  have names : (d.layout.map Prod.fst).Nodup :=
    show ["type", "defaultValue", "allowedValues", "metadata"].Nodup by decide
  have part : ∀ name, (Json.recordMembers d.layout).lookup name = (d.layout.lookup name).join :=
    fun _ => Json.lookup_recordMembers names
  have type : Parts.required (Json.recordMembers d.layout) "type"
      (Json.choice? ParameterType.all ParameterType.name) = some d.type :=
    (Parts.required_of_lookup (part _)).trans d.type.choice?_name
  have default : Parts.optional (Json.recordMembers d.layout) "defaultValue"
      (Json.within 124 Value.ofJson?) = some d.defaultValue :=
    Parts.optional_value (part _) legible.default
  have allowed : Parts.withDefault (Json.recordMembers d.layout) "allowedValues" []
      (Json.items? (Json.within 123 Value.ofJson?)) = some d.allowedValues :=
    Parts.withDefault_eq (part _) List.isEmpty_iff.1 fun _ =>
      Json.items?_map fun value mem => Value.within_json (legible.allowed value mem)
  have description : Parts.optional (Json.recordMembers d.layout) "metadata" ofMetadata? =
      some d.description :=
    Parts.optional_map metadata (part _) fun text _ => ⟨Json.noConfusion, ofMetadata?_metadata text⟩
  rw [json_eq, ofJson?, Json.record?_recordMembers fields rfl (by decide), Option.bind_eq_bind,
    Option.bind_some, type, default, allowed, description]
  rfl

/-- **A parameter that has been read is legible.** -/
theorem legible_of_ofJson? {json : Json} (h : ofJson? json = some d) : d.Legible := by
  simp only [ofJson?, Option.bind_eq_bind, Option.bind_eq_some_iff] at h
  obtain ⟨parts, -, type, -, default, readDefault, allowed, readAllowed, description, -, same⟩ := h
  cases same
  exact ⟨Parts.of_optional_value readDefault,
    Parts.forall_of_withDefault readAllowed fun _ _ => Value.depth_le_of_within⟩

end ParameterDefinition

/-! ## Resources -/

namespace Resource

/-- No value of a resource is lost or too deep when it is written: the `sku` is not `null`,
which is read as none. -/
structure Legible (r : Resource) : Prop where
  sku : ∀ value ∈ r.sku, value ≠ .null ∧ value.json.depth ≤ 124
  properties : r.properties.json.depth ≤ 124

/-- A resource that does not say which element it is of. -/
def withoutElement (r : Resource) : Resource :=
  { r with element := "" }

/-- What is written for each field of a resource. -/
def layout (r : Resource) : List (String × Option Json) :=
  [("type", some (.string r.type)), ("apiVersion", some (.string r.apiVersion)),
    ("name", some (.string r.name)), ("location", some (.string r.location)),
    ("sku", r.sku.map (·.json)), ("kind", r.kind.map .string),
    ("dependsOn", if r.dependsOn.isEmpty then none else some (.array (r.dependsOn.map .string))),
    ("properties", if r.properties.isNull then none else some r.properties.json)]

variable {r : Resource}

theorem json_eq (r : Resource) : r.json = .object (Json.recordMembers r.layout) := by
  simp [json, layout, Json.recordMembers, Json.member?, Json.strings]

theorem readable_json (r : Resource) : r.json.readable = true := by
  have dependsOn : Json.readableItems (r.dependsOn.map .string) = true :=
    Json.readableItems_iff.2 (List.forall_mem_map.2 fun _ _ => rfl)
  rw [json_eq]
  refine Json.readable_recordMembers ?_
  simp only [layout, List.forall_mem_cons, Option.forall_mem_map]
  have text : ∀ s, ∀ json ∈ some (Json.string s), json.readable = true := by simp [Json.readable]
  refine ⟨text _, text _, text _, text _, fun value _ => value.readable_json, fun _ _ => rfl, ?_,
    ?_, by simp⟩
  · split <;> simp [Json.readable, dependsOn]
  · split <;> simp [r.properties.readable_json]

/-- **A legible resource comes back from its tree**, without its element. -/
theorem ofJson?_json (legible : r.Legible) : ofJson? r.json = some r.withoutElement := by
  have names : (r.layout.map Prod.fst).Nodup :=
    show ["type", "apiVersion", "name", "location", "sku", "kind", "dependsOn",
      "properties"].Nodup by decide
  have part : ∀ name, (Json.recordMembers r.layout).lookup name = (r.layout.lookup name).join :=
    fun _ => Json.lookup_recordMembers names
  have sku : Parts.optional (Json.recordMembers r.layout) "sku"
      (Json.within 124 Value.ofJson?) = some r.sku :=
    Parts.optional_value (part _) legible.sku
  have kind : Parts.optional (Json.recordMembers r.layout) "kind" Json.string? = some r.kind :=
    Parts.optional_map .string (part _) fun _ _ => ⟨Json.noConfusion, rfl⟩
  have dependsOn : Parts.withDefault (Json.recordMembers r.layout) "dependsOn" []
      (Json.items? Json.string?) = some r.dependsOn :=
    Parts.withDefault_eq (part _) List.isEmpty_iff.1 fun _ => Json.items?_map fun _ _ => rfl
  have properties : Parts.withDefault (Json.recordMembers r.layout) "properties" .null
      (Json.within 124 Value.ofJson?) = some r.properties :=
    Parts.withDefault_eq (part _) Value.isNull_iff.1 fun _ => Value.within_json legible.properties
  rw [json_eq, ofJson?, Json.record?_recordMembers fields rfl (by decide), Option.bind_eq_bind,
    Option.bind_some, Parts.required_text (part "type"), Parts.required_text (part "apiVersion"),
    Parts.required_text (part "name"), Parts.required_text (part "location"), sku, kind, dependsOn,
    properties]
  rfl

/-- **A resource that has been read is legible** and does not say which element it is of. -/
theorem legible_of_ofJson? {json : Json} (h : ofJson? json = some r) :
    r.Legible ∧ r.withoutElement = r := by
  simp only [ofJson?, Option.bind_eq_bind, Option.bind_eq_some_iff] at h
  obtain ⟨parts, -, type, -, api, -, name, -, location, -, sku, readSku, kind, -, dependsOn, -,
    properties, readProperties, same⟩ := h
  cases same
  refine ⟨⟨Parts.of_optional_value readSku, ?_⟩, rfl⟩
  rcases Parts.eq_or_exists_of_withDefault readProperties with rfl | ⟨json, read⟩
  · exact Nat.zero_le _
  · exact Value.depth_le_of_within read

end Resource

/-! ## Templates -/

namespace Template

/-- No part of a template is lost or too deep when it is written. -/
structure Legible (t : Template) : Prop where
  parameters : ∀ entry ∈ t.parameters.entries, entry.2.Legible
  resources : ∀ r ∈ t.resources, r.Legible

/-- A template that does not say which elements its resources are of. -/
def withoutElements (t : Template) : Template :=
  { t with resources := t.resources.map Resource.withoutElement }

variable {t : Template} {s : String}

theorem readable_json (t : Template) : t.json.readable = true := by
  have parameters : Json.readableMembers
      (t.parameters.entries.map (fun entry => (entry.1, entry.2.json))) = true :=
    Json.readableMembers_iff.2 (List.forall_mem_map.2 fun entry _ => entry.2.readable_json)
  have resources : Json.readableItems (t.resources.map Resource.json) = true :=
    Json.readableItems_iff.2 (List.forall_mem_map.2 fun r _ => r.readable_json)
  simp [json, Json.readable, Json.readableMembers, parameters, resources]

/-- A legible template comes back from its tree, without its elements. -/
theorem ofJson?_json (legible : t.Legible) : ofJson? t.json = some t.withoutElements := by
  have members : t.json = .object (Json.recordMembers
      [("$schema", some (.string t.schema)), ("contentVersion", some (.string t.contentVersion)),
        ("parameters",
          some (.object (t.parameters.entries.map (fun entry => (entry.1, entry.2.json))))),
        ("resources", some (.array (t.resources.map Resource.json)))]) := rfl
  have parameters := Json.dict?_map fun entry mem =>
    ParameterDefinition.ofJson?_json (legible.parameters entry mem)
  have resources : Json.items? Resource.ofJson? (.array (t.resources.map Resource.json)) =
      some t.withoutElements.resources := by
    rw [Json.items?, mapM_eq_some_iff, List.forall₂_map_left_iff, withoutElements,
      List.forall₂_map_right_iff]
    exact List.forall₂_same.2 fun r mem => Resource.ofJson?_json (legible.resources r mem)
  rw [ofJson?, members, Json.record?_recordMembers fields rfl (by decide)]
  simp [Parts.withDefault, Parts.required, Json.recordMembers, Json.member?, List.lookup_cons,
    Json.string?, parameters, resources]
  rfl

/-- **A legible template comes back from its text**, without its elements. -/
theorem parse?_text (legible : t.Legible) : parse? t.text = some t.withoutElements := by
  rw [parse?, text, Json.parse?_pretty_eq, Json.parse?_compact t.readable_json]
  exact ofJson?_json legible

/-- **Whatever has been read from a text is legible**, and its resources do not say which
elements they are of. -/
theorem legible_of_parse? (h : parse? s = some t) : t.Legible ∧ t.withoutElements = t := by
  obtain ⟨json, -, read⟩ := Option.bind_eq_some_iff.1 h
  simp only [ofJson?, Option.bind_eq_bind, Option.bind_eq_some_iff] at read
  obtain ⟨parts, -, schema, -, version, -, parameters, readParameters, resources, readResources,
    same⟩ := read
  cases same
  have each : ∀ r ∈ resources, r.Legible ∧ r.withoutElement = r :=
    Parts.forall_of_withDefault readResources fun _ _ => Resource.legible_of_ofJson?
  refine ⟨⟨?_, fun r mem => (each r mem).1⟩, ?_⟩
  · rcases Parts.eq_or_exists_of_withDefault readParameters with rfl | ⟨json, read⟩
    · exact fun _ mem => absurd mem List.not_mem_nil
    · exact Json.forall_of_dict? read fun _ _ => ParameterDefinition.legible_of_ofJson?
  · have same : resources.map Resource.withoutElement = resources :=
      (List.map_congr_left fun r mem => (each r mem).2).trans (List.map_id _)
    rw [withoutElements, same]

/-- **What has been read comes back from its own text.** -/
theorem parse?_text_of_parse? (h : parse? s = some t) : parse? t.text = some t := by
  obtain ⟨legible, same⟩ := legible_of_parse? h
  rw [parse?_text legible, same]

/-- The elements are not written. -/
theorem text_withoutElements (t : Template) : t.withoutElements.text = t.text := by
  have resources : t.withoutElements.resources.map Resource.json =
      t.resources.map Resource.json := List.map_map
  rw [text, text, json, json, resources]
  rfl

end Template

end CloudCanvas
