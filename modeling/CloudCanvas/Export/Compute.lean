import CloudCanvas.Export.Fault
import CloudCanvas.Template

/-!
# Exporting virtual machines

A virtual machine has at least one network interface; the one that was linked
first is primary.  All machines of a drawing share one login.
-/

namespace CloudCanvas

namespace VirtualMachine

/-- The version of the resource. -/
def api : String := "2023-03-01"

/-- The parameter for the name of the login. -/
def adminUsername : String := "adminUsername"

/-- The parameter for the password of the login. -/
def adminPassword : String := "adminPassword"

/-- The parameter for the size of a machine. -/
def sizeParameter (machine : Node) : String :=
  parameterName machine.id "vmSize"

/-- What is asked for a machine. -/
def parameters (machine : Node) : Except ExportError (List (String × ParameterDefinition)) := do
  let size ← (Element.node machine).textProperty "vmSize" "Standard_B2s"
  let username ← (Element.node machine).textProperty "adminUsername" "azureuser"
  return [
    (sizeParameter machine,
      (ParameterDefinition.text size).described ("Size of " ++ (Element.node machine).displayName)),
    (adminUsername, .text username),
    (adminPassword, (ParameterDefinition.ofType .secureString).described
      "Administrator password for all virtual machines")]

/-- The references to the network interfaces of a machine. -/
def interfaceReferences (t : Topology) (machine : Node) : List String :=
  (t.linkedOfKind machine.id .networkInterface).map (fun interface =>
    resourceReference ResourceKind.networkInterface.templateType [interface.displayName])

/-- How a machine lists an interface. -/
def interfaceEntry (primary : Bool) (reference : String) : Value :=
  .ofMembers [("id", .string reference), ("properties", .ofMembers [("primary", .bool primary)])]

/-- How a machine lists its interfaces. -/
def interfaceEntries : List String → List Value
  | [] => []
  | first :: others => interfaceEntry true first :: others.map (interfaceEntry false)

/-- The resource that a machine is. -/
def resource (t : Topology) (machine : Node) : Except ExportError Resource := do
  let references := interfaceReferences t machine
  if references.isEmpty then throw ⟨machine.id, .noInterface⟩
  let publisher ← (Element.node machine).textProperty "imagePublisher" "Canonical"
  let offer ← (Element.node machine).textProperty "imageOffer" "0001-com-ubuntu-server-jammy"
  let sku ← (Element.node machine).textProperty "imageSku" "22_04-lts-gen2"
  let name := (Element.node machine).displayName
  return { Resource.named ResourceKind.virtualMachine.templateType api name machine.id with
    dependsOn := references
    properties := .ofMembers [
      ("hardwareProfile", .ofMembers [
        ("vmSize", .string (parameterReference (sizeParameter machine)))]),
      ("osProfile", .ofMembers [
        ("computerName", .string (literal name)),
        ("adminUsername", .string (parameterReference adminUsername)),
        ("adminPassword", .string (parameterReference adminPassword))]),
      ("storageProfile", .ofMembers [
        ("imageReference", .ofMembers [
          ("publisher", .string publisher),
          ("offer", .string offer),
          ("sku", .string sku),
          ("version", .string "latest")]),
        ("osDisk", .ofMembers [("createOption", .string "FromImage")])]),
      ("networkProfile", .ofMembers [
        ("networkInterfaces", .array (interfaceEntries references))])] }

end VirtualMachine

end CloudCanvas
