import CloudCanvas.Export.Fault
import CloudCanvas.Template

/-!
# Exporting storage accounts

The name of an account is brought to lower case and must then be 3 to 24 letters
and digits.
-/

namespace CloudCanvas

namespace StorageAccount

/-- The version of the resource. -/
def api : String := "2023-01-01"

/-- The parameter for the redundancy of an account. -/
def skuParameter (account : Node) : String :=
  parameterName account.id "sku"

/-- Whether a name is one that an account can have. -/
def isValidName (name : String) : Bool :=
  decide (3 ≤ name.length) && decide (name.length ≤ 24) && name.toList.all Char.isAlphanum

/-- The name of an account, with its ASCII letters in lower case. -/
def name (account : Node) : Except ExportError String :=
  let name := String.ofList ((Element.node account).displayName.toList.map Char.toLower)
  if isValidName name then .ok name else .error ⟨account.id, .badAccountName name⟩

/-- What is asked for an account. -/
def parameters (account : Node) : Except ExportError (List (String × ParameterDefinition)) := do
  let sku ← (Element.node account).textProperty "sku" "Standard_LRS"
  if storageSkus.contains sku then
    return [(skuParameter account, (ParameterDefinition.text sku).allowing storageSkus)]
  else throw ⟨account.id, .unknownSku sku⟩

/-- The resource that an account is. -/
def resource (account : Node) : Except ExportError Resource := do
  let name ← name account
  let reference := parameterReference (skuParameter account)
  return { Resource.named ResourceKind.storageAccount.templateType api name account.id with
    kind := some "StorageV2"
    sku := some (.ofMembers [("name", .string reference)])
    properties := .ofMembers [
      ("minimumTlsVersion", .string "TLS1_2"),
      ("supportsHttpsTrafficOnly", .bool true)] }

end StorageAccount

end CloudCanvas
