import CloudCanvas.Proofs.Json.Leaves
import CloudCanvas.Proofs.Template.Expression
import CloudCanvas.Template.Codec

/-!
# The texts of a template

What stands at the leaves of a template, of a resource and of a parameter, told by their
parts.  Parts that are left out of the tree have no texts.

## Main definitions

* `ParameterDefinition.Plain`: nothing in a parameter is evaluated.
* `ParameterDefinition.OfTexts`: its values are texts as well.

The main statements are `Resource.mem_texts_json` and `Template.mem_texts_json`.
-/

namespace CloudCanvas

variable {s : String}

/-- The texts of a part of a record that may be left out. -/
private theorem mem_texts_member? {name : String} {part : Option Json} :
    (∃ member ∈ Json.member? name part, s ∈ member.2.texts) ↔
      ∃ json, part = some json ∧ s ∈ json.texts := by
  cases part <;> simp [Json.member?]

/-- The texts of a part that a record may not have. -/
private theorem mem_texts_map_json {part : Option Value} :
    (∃ json, part.map (·.json) = some json ∧ s ∈ json.texts) ↔
      ∃ value, part = some value ∧ s ∈ value.json.texts := by
  cases part <;> simp

namespace ParameterDefinition

theorem mem_texts_json {d : ParameterDefinition} : s ∈ d.json.texts ↔
    s = d.type.name ∨ (∃ value, d.defaultValue = some value ∧ s ∈ value.json.texts) ∨
      (∃ value ∈ d.allowedValues, s ∈ value.json.texts) ∨ d.description = some s := by
  have allowed : (∃ json, (if d.allowedValues.isEmpty then none
      else some (Json.array (d.allowedValues.map (·.json)))) = some json ∧ s ∈ json.texts) ↔
        ∃ value ∈ d.allowedValues, s ∈ value.json.texts := by
    cases d.allowedValues <;> simp
  have description : (∃ json, d.description.map
      (fun text => Json.object [("description", .string text)]) = some json ∧ s ∈ json.texts) ↔
        d.description = some s := by
    cases d.description <;> simp [eq_comm]
  simp only [json, Json.mem_texts_object, List.mem_append, or_and_right, exists_or,
    mem_texts_member?, mem_texts_map_json, allowed, description]
  simp [or_assoc]

/-- Nothing in a parameter is evaluated. -/
def Plain (d : ParameterDefinition) : Prop :=
  ∀ s ∈ d.json.texts, isEvaluated s = false

variable {d : ParameterDefinition}

/-- The values of a parameter are texts, and nothing in it is evaluated. -/
structure OfTexts (d : ParameterDefinition) : Prop where
  default : ∀ value ∈ d.defaultValue, ∃ s, isEvaluated s = false ∧ value = .string s
  allowed : ∀ value ∈ d.allowedValues, ∃ s, isEvaluated s = false ∧ value = .string s
  description : ∀ s ∈ d.description, isEvaluated s = false

theorem ofTexts_ofType (type : ParameterType) : (ofType type).OfTexts :=
  ⟨by simp [ofType], by simp [ofType], by simp [ofType]⟩

theorem ofTexts_text {default : String} (h : isEvaluated default = false) :
    (text default).OfTexts := by
  refine ⟨?_, by simp [text, ofType], by simp [text, ofType]⟩
  rintro _ ⟨⟩
  exact ⟨default, h, rfl⟩

theorem OfTexts.allowing (h : d.OfTexts) {texts : List String}
    (plain : ∀ s ∈ texts, isEvaluated s = false) : (d.allowing texts).OfTexts :=
  ⟨h.default, List.forall_mem_map.2 fun s mem => ⟨s, plain s mem, rfl⟩, h.description⟩

theorem OfTexts.described (h : d.OfTexts) {description : String}
    (plain : isEvaluated description = false) : (d.described description).OfTexts := by
  refine ⟨h.default, h.allowed, ?_⟩
  rintro _ ⟨⟩
  exact plain

theorem OfTexts.plain (h : d.OfTexts) : d.Plain := by
  intro s mem
  rcases mem_texts_json.1 mem with rfl | ⟨value, given, text⟩ | ⟨value, listed, text⟩ | described
  · cases d.type <;> decide
  · obtain ⟨default, plain, rfl⟩ := h.default value given
    rwa [Json.mem_texts_string.1 text]
  · obtain ⟨choice, plain, rfl⟩ := h.allowed value listed
    rwa [Json.mem_texts_string.1 text]
  · exact h.description s described

end ParameterDefinition

namespace Resource

theorem mem_texts_json {r : Resource} : s ∈ r.json.texts ↔
    s = r.type ∨ s = r.apiVersion ∨ s = r.name ∨ s = r.location ∨
      (∃ sku, r.sku = some sku ∧ s ∈ sku.json.texts) ∨ r.kind = some s ∨ s ∈ r.dependsOn ∨
        s ∈ r.properties.json.texts := by
  have kind : (∃ json, r.kind.map Json.string = some json ∧ s ∈ json.texts) ↔
      r.kind = some s := by
    cases r.kind <;> simp [eq_comm]
  have dependsOn : (∃ json, (if r.dependsOn.isEmpty then none
      else some (Json.strings r.dependsOn)) = some json ∧ s ∈ json.texts) ↔ s ∈ r.dependsOn := by
    cases r.dependsOn <;> simp [Json.strings]
  have properties : (∃ json, (if r.properties.isNull then none
      else some r.properties.json) = some json ∧ s ∈ json.texts) ↔
        s ∈ r.properties.json.texts := by
    by_cases null : r.properties.isNull = true
    · have none : s ∉ r.properties.json.texts := by
        rw [Value.isNull] at null
        split at null
        · rename_i eq
          simp [eq, Json.texts]
        · cases null
      simp [null, none]
    · simp [null]
  simp only [json, Json.mem_texts_object, List.mem_append, or_and_right, exists_or,
    mem_texts_member?, mem_texts_map_json, kind, dependsOn, properties]
  simp [or_assoc]

end Resource

theorem Template.mem_texts_json {t : Template} : s ∈ t.json.texts ↔
    s = t.schema ∨ s = t.contentVersion ∨
      (∃ entry ∈ t.parameters.entries, s ∈ entry.2.json.texts) ∨
        ∃ r ∈ t.resources, s ∈ r.json.texts := by
  simp [json]

end CloudCanvas
