import CloudCanvas.Json.Value
import CloudCanvas.Template.Expression

/-!
# Deployment templates

A template lists the resources to deploy and the parameters that are asked for
when it is deployed.

## Main definitions

* `ParameterType`, `ParameterDefinition`: what is asked for.
* `Resource`: what is deployed, and the element of the drawing it comes from.
* `Template`: the document.
* `Template.addParameters`: entering parameters, of which the later counts.
-/

namespace CloudCanvas

/-- The type of a parameter. -/
inductive ParameterType where
  | string
  | secureString
  | int
  | bool
  | object
  | array
deriving DecidableEq

/-- What a parameter is. -/
structure ParameterDefinition where
  type : ParameterType
  defaultValue : Option Value
  allowedValues : List Value
  description : Option String
deriving DecidableEq

namespace ParameterDefinition

/-- A parameter of which only the type is said. -/
def ofType (type : ParameterType) : ParameterDefinition := ⟨type, none, [], none⟩

/-- A text with a default. -/
def text (default : String) : ParameterDefinition :=
  { ofType .string with defaultValue := some (.string default) }

/-- The same parameter with a choice of texts. -/
def allowing (d : ParameterDefinition) (texts : List String) : ParameterDefinition :=
  { d with allowedValues := texts.map .string }

/-- The same parameter with a description. -/
def described (d : ParameterDefinition) (description : String) : ParameterDefinition :=
  { d with description := some description }

end ParameterDefinition

/-- A resource to deploy.  The element that it comes from is not written out. -/
structure Resource where
  type : String
  apiVersion : String
  name : String
  location : String
  sku : Option Value
  kind : Option String
  dependsOn : List String
  properties : Value
  element : String
deriving DecidableEq

/-- A resource of a type with a name, the rest still unsaid. -/
def Resource.named (type apiVersion name element : String) : Resource where
  type := type
  apiVersion := apiVersion
  name := literal name
  location := locationExpression
  sku := none
  kind := none
  dependsOn := []
  properties := .null
  element := element

/-- A deployment template. -/
structure Template where
  schema : String
  contentVersion : String
  parameters : Dict ParameterDefinition
  resources : List Resource
deriving DecidableEq

namespace Template

/-- The schema that templates are written to. -/
def deploymentSchema : String :=
  "https://schema.management.azure.com/schemas/2019-04-01/deploymentTemplate.json#"

/-- The template that asks for nothing and deploys nothing. -/
def empty : Template := ⟨deploymentSchema, "1.0.0.0", ∅, []⟩

instance : EmptyCollection Template := ⟨empty⟩

instance : Inhabited Template := ⟨empty⟩

/-- Enter a parameter, and add its name to a list if it had been there. -/
def enterParameter (state : Dict ParameterDefinition × List String)
    (parameter : String × ParameterDefinition) : Dict ParameterDefinition × List String :=
  let (parameters, replaced) := state
  (parameters.insert parameter.1 parameter.2,
    if parameters.contains parameter.1 then replaced ++ [parameter.1] else replaced)

/-- Enter parameters one after another: the names that had been there when their
turn came, and the template. -/
def addParameters (t : Template) (batch : List (String × ParameterDefinition)) :
    List String × Template :=
  let (parameters, replaced) := batch.foldl enterParameter (t.parameters, [])
  (replaced, { t with parameters := parameters })

/-- Add resources behind the others. -/
def addResources (t : Template) (resources : List Resource) : Template :=
  { t with resources := t.resources ++ resources }

end Template

end CloudCanvas
