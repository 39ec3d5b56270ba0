import CloudCanvas.Json.Parser
import CloudCanvas.Json.Printer
import CloudCanvas.Json.Record
import CloudCanvas.Template

/-!
# Templates as JSON text

A template is written with one part a line and without the parts of a parameter
or resource that are empty.  It is read from at most 127 arrays and objects nested
in each other, itself included.

## Main definitions

* `Template.json`, `Template.ofJson?`: templates as trees.
* `Template.text`, `Template.parse?`: templates as text.
-/

namespace CloudCanvas

namespace ParameterType

/-- The written name of a type. -/
def name : ParameterType → String
  | .string => "string"
  | .secureString => "securestring"
  | .int => "int"
  | .bool => "bool"
  | .object => "object"
  | .array => "array"

/-- All types. -/
def all : List ParameterType := [.string, .secureString, .int, .bool, .object, .array]

end ParameterType

/-- A choice by its name, either alone or as the key of an object whose value is
`null`. -/
def Json.choice? {α : Type} (choices : List α) (name : α → String) : Json → Option α
  | .string s => choices.find? (name · == s)
  | .object [(s, .null)] => choices.find? (name · == s)
  | _ => none

namespace ParameterDefinition

/-- A parameter as a tree. -/
def json (d : ParameterDefinition) : Json :=
  .object ([("type", .string d.type.name)]
    ++ Json.member? "defaultValue" (d.defaultValue.map (·.json))
    ++ Json.member? "allowedValues"
      (if d.allowedValues.isEmpty then none else some (.array (d.allowedValues.map (·.json))))
    ++ Json.member? "metadata"
      (d.description.map (fun text => .object [("description", .string text)])))

/-- The fields of a parameter. -/
def fields : List Field :=
  [⟨"type", false⟩, ⟨"defaultValue", true⟩, ⟨"allowedValues", true⟩, ⟨"metadata", true⟩]

/-- The description that a parameter's metadata hold. -/
def ofMetadata? (json : Json) : Option String := do
  let parts ← json.record? [⟨"description", false⟩]
  parts.required "description" Json.string?

/-- The parameter that a tree holds. -/
def ofJson? (json : Json) : Option ParameterDefinition := do
  let parts ← json.record? fields
  let type ← parts.required "type" (Json.choice? ParameterType.all ParameterType.name)
  let defaultValue ← parts.optional "defaultValue" (Json.within 124 Value.ofJson?)
  let allowedValues ← parts.withDefault "allowedValues" []
    (Json.items? (Json.within 123 Value.ofJson?))
  let description ← parts.optional "metadata" ofMetadata?
  some ⟨type, defaultValue, allowedValues, description⟩

end ParameterDefinition

namespace Resource

/-- A resource as a tree. -/
def json (r : Resource) : Json :=
  .object ([("type", .string r.type), ("apiVersion", .string r.apiVersion),
      ("name", .string r.name), ("location", .string r.location)]
    ++ Json.member? "sku" (r.sku.map (·.json))
    ++ Json.member? "kind" (r.kind.map .string)
    ++ Json.member? "dependsOn"
      (if r.dependsOn.isEmpty then none else some (Json.strings r.dependsOn))
    ++ Json.member? "properties" (if r.properties.isNull then none else some r.properties.json))

/-- The fields of a resource. -/
def fields : List Field :=
  [⟨"type", false⟩, ⟨"apiVersion", false⟩, ⟨"name", false⟩, ⟨"location", false⟩,
    ⟨"sku", true⟩, ⟨"kind", true⟩, ⟨"dependsOn", true⟩, ⟨"properties", true⟩]

/-- The resource that a tree holds. -/
def ofJson? (json : Json) : Option Resource := do
  let parts ← json.record? fields
  let type ← parts.required "type" Json.string?
  let apiVersion ← parts.required "apiVersion" Json.string?
  let name ← parts.required "name" Json.string?
  let location ← parts.required "location" Json.string?
  let sku ← parts.optional "sku" (Json.within 124 Value.ofJson?)
  let kind ← parts.optional "kind" Json.string?
  let dependsOn ← parts.withDefault "dependsOn" [] (Json.items? Json.string?)
  let properties ← parts.withDefault "properties" .null (Json.within 124 Value.ofJson?)
  some ⟨type, apiVersion, name, location, sku, kind, dependsOn, properties, ""⟩

end Resource

namespace Template

/-- A template as a tree. -/
def json (t : Template) : Json :=
  .object [("$schema", .string t.schema), ("contentVersion", .string t.contentVersion),
    ("parameters", .object (t.parameters.entries.map (fun entry => (entry.1, entry.2.json)))),
    ("resources", .array (t.resources.map Resource.json))]

/-- The fields of a template. -/
def fields : List Field :=
  [⟨"$schema", false⟩, ⟨"contentVersion", false⟩, ⟨"parameters", true⟩, ⟨"resources", true⟩]

/-- The template that a tree holds. -/
def ofJson? (json : Json) : Option Template := do
  let parts ← json.record? fields
  let schema ← parts.required "$schema" Json.string?
  let contentVersion ← parts.required "contentVersion" Json.string?
  let parameters ← parts.withDefault "parameters" ∅ (Json.dict? ParameterDefinition.ofJson?)
  let resources ← parts.withDefault "resources" [] (Json.items? Resource.ofJson?)
  some ⟨schema, contentVersion, parameters, resources⟩

/-- A template as text. -/
def text (t : Template) : String :=
  t.json.pretty

/-- The template that a text holds. -/
def parse? (s : String) : Option Template := do
  let json ← Json.parse? s
  ofJson? json

end Template

end CloudCanvas
