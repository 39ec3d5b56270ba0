import CloudCanvas.Topology.Basic

/-!
# The catalog of resource kinds

Kinds in the catalog are deployed; all other kinds are annotations.  Two of them
are groups and the others are nodes.

## Main definitions

* `ResourceKind` with its tag, its type in a template and its role.
* `ResourceKind.ofTag?`: the kind that a tag names.
* `groupRole`: whether a group is deployed with the group around it.
* `Topology.linkedOfKind`: the linked elements of a kind.
-/

namespace CloudCanvas

/-- A kind of resource. -/
inductive ResourceKind where
  | virtualNetwork
  | subnet
  | networkInterface
  | publicIp
  | virtualMachine
  | storageAccount
  | appServicePlan
  | webApp
deriving DecidableEq

namespace ResourceKind

/-- All kinds. -/
def all : List ResourceKind :=
  [virtualNetwork, subnet, networkInterface, publicIp, virtualMachine, storageAccount,
    appServicePlan, webApp]

/-- The tag of a kind on the canvas. -/
def tag : ResourceKind → String
  | virtualNetwork => "virtual-network"
  | subnet => "subnet"
  | networkInterface => "network-interface"
  | publicIp => "public-ip"
  | virtualMachine => "virtual-machine"
  | storageAccount => "storage-account"
  | appServicePlan => "app-service-plan"
  | webApp => "web-app"

/-- The type of a kind in a template. -/
def templateType : ResourceKind → String
  | virtualNetwork => "Microsoft.Network/virtualNetworks"
  | subnet => "Microsoft.Network/virtualNetworks/subnets"
  | networkInterface => "Microsoft.Network/networkInterfaces"
  | publicIp => "Microsoft.Network/publicIPAddresses"
  | virtualMachine => "Microsoft.Compute/virtualMachines"
  | storageAccount => "Microsoft.Storage/storageAccounts"
  | appServicePlan => "Microsoft.Web/serverfarms"
  | webApp => "Microsoft.Web/sites"

/-- Whether elements of a kind are groups. -/
def isContainer : ResourceKind → Bool
  | virtualNetwork | subnet => true
  | networkInterface | publicIp | virtualMachine | storageAccount | appServicePlan | webApp => false

/-- The kind that a tag names. -/
def ofTag? (tag : String) : Option ResourceKind :=
  all.find? (·.tag == tag)

end ResourceKind

/-- How a group is deployed: by itself, or together with a group of some kind that
must be directly around it. -/
inductive GroupRole where
  | standalone
  | nestedOnly (within : ResourceKind)
deriving DecidableEq

/-- How groups with a tag are deployed. -/
def groupRole (tag : String) : GroupRole :=
  match ResourceKind.ofTag? tag with
  | some .subnet => .nestedOnly .virtualNetwork
  | _ => .standalone

/-- The linked elements of a kind. -/
def Topology.linkedOfKind (t : Topology) (id : String) (kind : ResourceKind) : List Element :=
  (t.linked id).filter (·.kind == kind.tag)

end CloudCanvas
