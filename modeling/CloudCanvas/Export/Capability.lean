import CloudCanvas.Export.Compute
import CloudCanvas.Export.Network
import CloudCanvas.Export.Storage
import CloudCanvas.Export.Web

/-!
# What an element contributes to a template

## Main definitions

* `Capability`: an element as the resource that its kind makes of it.
* `Capability.of?`: the capability of an element, none for an annotation.
* `Capability.parameters`, `Capability.resource`: what it contributes.  No kind makes more than
  one resource, so the contribution is that resource itself and not a row of resources.
-/

namespace CloudCanvas

/-- An element that the catalog knows. -/
inductive Capability where
  | virtualNetwork (group : Group)
  | subnet (group : Group)
  | networkInterface (node : Node)
  | publicIp (node : Node)
  | virtualMachine (node : Node)
  | storageAccount (node : Node)
  | appServicePlan (node : Node)
  | webApp (node : Node)
  /-- A kind of group on a node, or the other way round. -/
  | misplaced (kind : ResourceKind) (element : Element)

namespace Capability

/-- What a kind of the catalog makes of an element. -/
def ofKind (kind : ResourceKind) (element : Element) : Capability :=
  match kind, element with
  | .virtualNetwork, .group g => .virtualNetwork g
  | .subnet, .group g => .subnet g
  | .networkInterface, .node n => .networkInterface n
  | .publicIp, .node n => .publicIp n
  | .virtualMachine, .node n => .virtualMachine n
  | .storageAccount, .node n => .storageAccount n
  | .appServicePlan, .node n => .appServicePlan n
  | .webApp, .node n => .webApp n
  | kind, element => .misplaced kind element

/-- The capability of an element. -/
def of? (element : Element) : Option Capability :=
  (ResourceKind.ofTag? element.kind).map (ofKind · element)

/-- The parameters that an element contributes.  A subnet contributes nothing by
itself: its network must be around it. -/
def parameters : Capability → Except ExportError (List (String × ParameterDefinition))
  | .virtualNetwork g => VirtualNetwork.parameters g
  | .subnet g => .error ⟨g.id, .subnetOutsideNetwork⟩
  | .networkInterface _ => .ok []
  | .publicIp n => PublicIp.parameters n
  | .virtualMachine n => VirtualMachine.parameters n
  | .storageAccount n => StorageAccount.parameters n
  | .appServicePlan n => AppServicePlan.parameters n
  | .webApp _ => .ok []
  | .misplaced kind element => .error ⟨element.id, .wrongElement kind⟩

/-- The resource that an element is.  Each kind that the catalog knows makes exactly one, where
an element could contribute a row of them. -/
def resource (t : Topology) : Capability → Except ExportError Resource
  | .virtualNetwork g => VirtualNetwork.resource t g
  | .subnet g => .error ⟨g.id, .subnetOutsideNetwork⟩
  | .networkInterface n => NetworkInterface.resource t n
  | .publicIp n => PublicIp.resource n
  | .virtualMachine n => VirtualMachine.resource t n
  | .storageAccount n => StorageAccount.resource n
  | .appServicePlan n => .ok (AppServicePlan.resource n)
  | .webApp n => WebApp.resource t n
  | .misplaced kind element => .error ⟨element.id, .wrongElement kind⟩

end Capability

end CloudCanvas
