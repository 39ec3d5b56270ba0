import CloudCanvas.Export.Fault
import CloudCanvas.Template

/-!
# Exporting web apps

A web app runs on exactly one plan, to which it must be linked.
-/

namespace CloudCanvas

/-- The version of the web resources. -/
def webApi : String := "2022-09-01"

namespace AppServicePlan

/-- The parameter for the size of a plan. -/
def skuParameter (plan : Node) : String :=
  parameterName plan.id "sku"

/-- What is asked for a plan. -/
def parameters (plan : Node) : Except ExportError (List (String × ParameterDefinition)) := do
  let sku ← (Element.node plan).textProperty "sku" "F1"
  return [(skuParameter plan, .text sku)]

/-- The resource that a plan is. -/
def resource (plan : Node) : Resource :=
  { Resource.named ResourceKind.appServicePlan.templateType webApi
      (Element.node plan).displayName plan.id with
    sku := some (.ofMembers [("name", .string (parameterReference (skuParameter plan)))])
    properties := .ofMembers [] }

end AppServicePlan

namespace WebApp

/-- The plan that an app runs on. -/
def plan (t : Topology) (app : Node) : Except ExportError Element :=
  match t.linkedOfKind app.id .appServicePlan with
  | [plan] => .ok plan
  | [] => .error ⟨app.id, .noPlan⟩
  | plans => .error ⟨app.id, .severalPlans plans.length⟩

/-- Whether an app is reached over a secure connection alone. -/
def httpsOnly (app : Node) : Bool :=
  ((app.properties.get? "httpsOnly").bind Value.bool?).getD true

/-- The resource that an app is. -/
def resource (t : Topology) (app : Node) : Except ExportError Resource := do
  let plan ← plan t app
  let reference := resourceReference ResourceKind.appServicePlan.templateType [plan.displayName]
  return { Resource.named ResourceKind.webApp.templateType webApi
      (Element.node app).displayName app.id with
    dependsOn := [reference]
    properties := .ofMembers [
      ("serverFarmId", .string reference),
      ("httpsOnly", .bool (httpsOnly app))] }

end WebApp

end CloudCanvas
