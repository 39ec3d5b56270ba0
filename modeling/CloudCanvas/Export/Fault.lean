import CloudCanvas.Catalog
import CloudCanvas.Json.Printer
import CloudCanvas.Template.Expression
import CloudCanvas.Text.Blank

/-!
# Why an element cannot be exported

## Main definitions

* `ExportFault`: the causes, and `ExportFault.reason`, their wording.
* `ExportError`: a cause and the element it lies in.
* `Element.displayName`, `Element.textProperty`: what most exports read.
-/

namespace CloudCanvas

/-- The redundancy levels of a storage account. -/
def storageSkus : List String :=
  ["Standard_LRS", "Standard_GRS", "Standard_ZRS", "Premium_LRS"]

/-- Why an element cannot be exported. -/
inductive ExportFault where
  | notText (property : String) (value : Value)
  | wrongElement (kind : ResourceKind)
  | sharedScope (owner : String)
  | repeatedSubnetName (name : String)
  | noRangeLeft (space : String)
  | subnetOutsideNetwork
  | unknownAllocation (allocation : String)
  | interfaceOutsideSubnet
  | interfaceOutsideNetwork
  | severalPublicIps (count : Nat)
  | noInterface
  | badAccountName (name : String)
  | unknownSku (sku : String)
  | noPlan
  | severalPlans (count : Nat)
deriving DecidableEq

/-- The wording of a cause. -/
def ExportFault.reason : ExportFault → String
  | .notText property value =>
    "property '" ++ property ++ "' must be a string, got " ++ value.compact
  | .wrongElement kind =>
    "'" ++ kind.tag ++ "' must be placed on the canvas as a "
      ++ (if kind.isContainer then "group" else "node")
  | .sharedScope owner =>
    "its parameter names collide with those of '" ++ owner ++ "'; rename one of them"
  | .repeatedSubnetName name => "subnet name '" ++ name ++ "' is used twice"
  | .noRangeLeft space =>
    "no default /24 is left in address space '" ++ space ++ "'; set addressPrefix on the subnet"
  | .subnetOutsideNetwork =>
    "a subnet must be nested directly inside a " ++ ResourceKind.virtualNetwork.tag
  | .unknownAllocation allocation =>
    "allocation '" ++ allocation ++ "' must be Dynamic or Static"
  | .interfaceOutsideSubnet => "a network interface must sit inside a subnet"
  | .interfaceOutsideNetwork => "the enclosing subnet is not inside a virtual network"
  | .severalPublicIps count =>
    toString count ++ " public IPs are linked; at most one is allowed"
  | .noInterface => "a virtual machine needs at least one linked network-interface"
  | .badAccountName name =>
    "storage account name '" ++ name ++ "' must be 3-24 lowercase letters or digits"
  | .unknownSku sku => "sku '" ++ sku ++ "' is not one of " ++ ", ".intercalate storageSkus
  | .noPlan => "a web app needs a linked app-service-plan"
  | .severalPlans count =>
    toString count ++ " app service plans are linked; exactly one is allowed"

/-- Why a topology cannot be exported, and in which element that lies. -/
structure ExportError where
  element : String
  cause : ExportFault
deriving DecidableEq

/-- The wording of an error. -/
def ExportError.message (e : ExportError) : String :=
  "cannot export '" ++ e.element ++ "': " ++ e.cause.reason

namespace Element

/-- The name of an element: the property `name` unless it is blank, else its
id. -/
def displayName (element : Element) : String :=
  match element.text? "name" with
  | some name => if isAllBlank name then element.id else name
  | none => element.id

/-- A property that must be a text if it is there, written so that it is not
evaluated. -/
def textProperty (element : Element) (name default : String) : Except ExportError String :=
  match element.properties.get? name with
  | none => .ok (literal default)
  | some value =>
    match value.string? with
    | some text => .ok (literal text)
    | none => .error ⟨element.id, .notText name value⟩

end Element

end CloudCanvas
