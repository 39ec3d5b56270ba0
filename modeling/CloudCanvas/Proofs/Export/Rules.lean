import CloudCanvas.Proofs.Network.Prefix
import CloudCanvas.Proofs.Topology.Links
import CloudCanvas.Topology.History
import CloudCanvas.Export.Build

/-!
# The rules of a drawing that can be exported

For each kind of the catalog a rule says what a group or a node of that kind must be
like.  The rules are about the drawing alone: where an element stands, what links join
to it and which properties it has.

## Main definitions

* `Element.TextOrAbsent`, `Element.OneOfOrAbsent`: what a property must be.
* `Topology.IsDirectlyInside`: the group of a kind around an element.
* `Topology.GroupRule`, `Topology.NodeRule`: the rule of each kind.
* `Topology.Exportable`: every rule holds, and no two elements share the scope of their
  parameters.
-/

namespace CloudCanvas

namespace Element

/-- A property is missing or a text. -/
def TextOrAbsent (element : Element) (name : String) : Prop :=
  ∀ value, element.properties.get? name = some value → ∃ text, value = .string text

/-- A property is missing or one of some texts. -/
def OneOfOrAbsent (element : Element) (name : String) (texts : List String) : Prop :=
  ∀ value, element.properties.get? name = some value → ∃ text ∈ texts, value = .string text

/-- Whether an element is of a kind that has parameters. -/
def HasParameters (element : Element) : Prop :=
  ∃ kind ∈ [ResourceKind.virtualNetwork, .publicIp, .virtualMachine, .storageAccount,
    .appServicePlan], element.kind = kind.tag

instance (element : Element) : Decidable element.HasParameters :=
  inferInstanceAs (Decidable (∃ kind ∈ [ResourceKind.virtualNetwork, .publicIp,
    .virtualMachine, .storageAccount, .appServicePlan], element.kind = kind.tag))

end Element

namespace Topology

variable (t : Topology)

/-- Whether a group of a kind is the one directly around an element. -/
def IsDirectlyInside (element : Element) (kind : ResourceKind) (outer : Group) : Prop :=
  outer ∈ t.groups ∧ element.parent = some outer.id ∧ outer.kind = kind.tag

/-- The subnets directly inside a network, in the order in which they came. -/
def subnetsIn (network : Group) : List Group :=
  t.groups.filter (fun group =>
    group.parent == some network.id && group.kind == ResourceKind.subnet.tag)

/-- The subnets of a network have different names, and each of them a range: its own, or
the one that its place gives it in the address space of the network. -/
structure NetworkRule (network : Group) : Prop where
  addressPrefix : (Element.group network).TextOrAbsent "addressPrefix"
  names_nodup : ((t.subnetsIn network).map (fun subnet =>
    (Element.group subnet).displayName)).Nodup
  ranges : ∀ ordinal subnet, (t.subnetsIn network)[ordinal]? = some subnet →
    (∃ text, subnet.properties.get? "addressPrefix" = some (.string text)) ∨
      (subnet.properties.get? "addressPrefix" = none ∧ AddressSpace.HasRange
        (((Element.group network).text? "addressPrefix").getD "10.0.0.0/16") ordinal)

/-- An interface lies in a subnet that lies in a network, and has at most one public
address. -/
structure InterfaceRule (interface : Node) : Prop where
  inside : ∃ subnet, t.IsDirectlyInside (.node interface) .subnet subnet ∧
    ∃ network, t.IsDirectlyInside (.group subnet) .virtualNetwork network
  publicIp : ∀ ip other, t.LinkedKind interface.id .publicIp ip →
    t.LinkedKind interface.id .publicIp other → ip = other

/-- A machine has an interface, and what it reads as texts are texts. -/
structure MachineRule (machine : Node) : Prop where
  interface : ∃ interface, t.LinkedKind machine.id .networkInterface interface
  texts : ∀ name ∈ ["vmSize", "adminUsername", "imagePublisher", "imageOffer", "imageSku"],
    (Element.node machine).TextOrAbsent name

/-- The name of an account, in lower case, is 3 to 24 letters and digits. -/
def IsAccountName (name : List Char) : Prop :=
  3 ≤ name.length ∧ name.length ≤ 24 ∧
    ∀ c ∈ name.map Char.toLower, c.isLower = true ∨ c.isDigit = true

/-- What a group of a kind of the catalog must be like. -/
def GroupRule (group : Group) : ResourceKind → Prop
  | .virtualNetwork => t.NetworkRule group
  | .subnet => ∃ network, t.IsDirectlyInside (.group group) .virtualNetwork network
  | .networkInterface | .publicIp | .virtualMachine | .storageAccount | .appServicePlan
  | .webApp => False

/-- What a node of a kind of the catalog must be like. -/
def NodeRule (node : Node) : ResourceKind → Prop
  | .virtualNetwork | .subnet => False
  | .networkInterface => t.InterfaceRule node
  | .publicIp => (Element.node node).OneOfOrAbsent "allocation" ["Dynamic", "Static"] ∧
    (Element.node node).TextOrAbsent "sku"
  | .virtualMachine => t.MachineRule node
  | .storageAccount => (Element.node node).OneOfOrAbsent "sku" storageSkus ∧
    IsAccountName (Element.node node).displayName.toList
  | .appServicePlan => (Element.node node).TextOrAbsent "sku"
  | .webApp => ∃! plan, t.LinkedKind node.id .appServicePlan plan

/-- **A drawing that follows the rules**: each element of a kind of the catalog is as the
kind demands, and no two elements with parameters have the same scope of them. -/
structure Exportable : Prop where
  groups : ∀ group ∈ t.groups, ∀ kind : ResourceKind, group.kind = kind.tag →
    t.GroupRule group kind
  nodes : ∀ node ∈ t.nodes, ∀ kind : ResourceKind, node.kind = kind.tag → t.NodeRule node kind
  scopes : ∀ element ∈ t.elements, ∀ other ∈ t.elements, element.HasParameters →
    other.HasParameters → parameterScope element.id = parameterScope other.id → element = other

end Topology

end CloudCanvas
