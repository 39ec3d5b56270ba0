import CloudCanvas.Export.Fault
import CloudCanvas.Network.Prefix
import CloudCanvas.Template

/-!
# Exporting networks

A virtual network is one resource that holds its subnets.  A subnet without an
address prefix gets the range of 256 addresses that its place among the subnets
says.  A network interface lies in a subnet and can have one public address.
-/

namespace CloudCanvas

/-- The version of the network resources. -/
def networkApi : String := "2023-04-01"

namespace Subnet

/-- The address prefix of the subnet at a place in its network. -/
def addressPrefix (subnet : Group) (space : String) (ordinal : Nat) : Except ExportError String :=
  if subnet.properties.contains "addressPrefix" then
    (Element.group subnet).textProperty "addressPrefix" ""
  else match carveSubnet space ordinal with
    | some range => .ok range
    | none => .error ⟨subnet.id, .noRangeLeft space⟩

/-- How a network lists a subnet. -/
def entry (subnet : Group) (space : String) (ordinal : Nat) : Except ExportError Value := do
  let range ← addressPrefix subnet space ordinal
  return .ofMembers [("name", .string (literal (Element.group subnet).displayName)),
    ("properties", .ofMembers [("addressPrefix", .string range)])]

end Subnet

namespace VirtualNetwork

/-- The parameter for the address space of a network. -/
def prefixParameter (network : Group) : String :=
  parameterName network.id "addressPrefix"

/-- The address space of a network. -/
def addressSpace (network : Group) : Except ExportError String :=
  (Element.group network).textProperty "addressPrefix" "10.0.0.0/16"

/-- The subnets directly inside a network. -/
def subnets (t : Topology) (network : Group) : List Group :=
  (network.childGroups.filterMap t.group?).filter (·.kind == ResourceKind.subnet.tag)

/-- How a network lists its subnets, which must have different names. -/
def entries (network : Group) (space : String) :
    List String → Nat → List Group → Except ExportError (List Value)
  | _, _, [] => .ok []
  | seen, ordinal, subnet :: rest => do
    let name := (Element.group subnet).displayName
    if seen.contains name then throw ⟨network.id, .repeatedSubnetName name⟩
    let entry ← Subnet.entry subnet space ordinal
    let later ← entries network space (name :: seen) (ordinal + 1) rest
    return entry :: later

/-- What is asked for a network. -/
def parameters (network : Group) : Except ExportError (List (String × ParameterDefinition)) := do
  let space ← addressSpace network
  return [(prefixParameter network, (ParameterDefinition.text space).described
    ("Address space of " ++ (Element.group network).displayName))]

/-- The resource that a network is. -/
def resource (t : Topology) (network : Group) : Except ExportError Resource := do
  let space ← addressSpace network
  let entries ← entries network space [] 0 (subnets t network)
  let reference := parameterReference (prefixParameter network)
  return { Resource.named ResourceKind.virtualNetwork.templateType networkApi
      (Element.group network).displayName network.id with
    properties := .ofMembers [
      ("addressSpace", .ofMembers [("addressPrefixes", .array [.string reference])]),
      ("subnets", .array entries)] }

end VirtualNetwork

namespace PublicIp

/-- The ways an address is allocated. -/
def allocations : List String := ["Dynamic", "Static"]

/-- What is asked for a public address. -/
def parameters (ip : Node) : Except ExportError (List (String × ParameterDefinition)) := do
  let allocation ← (Element.node ip).textProperty "allocation" "Dynamic"
  if allocations.contains allocation then
    return [(parameterName ip.id "allocation",
      (ParameterDefinition.text allocation).allowing allocations)]
  else throw ⟨ip.id, .unknownAllocation allocation⟩

/-- The resource that a public address is. -/
def resource (ip : Node) : Except ExportError Resource := do
  let sku ← (Element.node ip).textProperty "sku" "Basic"
  let reference := parameterReference (parameterName ip.id "allocation")
  return { Resource.named ResourceKind.publicIp.templateType networkApi
      (Element.node ip).displayName ip.id with
    sku := some (.ofMembers [("name", .string sku)])
    properties := .ofMembers [("publicIPAllocationMethod", .string reference)] }

end PublicIp

namespace NetworkInterface

/-- The subnet that an interface lies in. -/
def subnet (t : Topology) (interface : Node) : Except ExportError Group :=
  match (t.parentOf (.node interface)).filter (·.kind == ResourceKind.subnet.tag) with
  | some subnet => .ok subnet
  | none => .error ⟨interface.id, .interfaceOutsideSubnet⟩

/-- The network that the subnet of an interface lies in. -/
def network (t : Topology) (interface : Node) (subnet : Group) : Except ExportError Group :=
  match (t.parentOf (.group subnet)).filter (·.kind == ResourceKind.virtualNetwork.tag) with
  | some network => .ok network
  | none => .error ⟨interface.id, .interfaceOutsideNetwork⟩

/-- The public address of an interface. -/
def publicIp (t : Topology) (interface : Node) : Except ExportError (Option Element) :=
  match t.linkedOfKind interface.id .publicIp with
  | [] => .ok none
  | [ip] => .ok (some ip)
  | ips => .error ⟨interface.id, .severalPublicIps ips.length⟩

/-- The resource that an interface is. -/
def resource (t : Topology) (interface : Node) : Except ExportError Resource := do
  let subnet ← subnet t interface
  let network ← network t interface subnet
  let ip ← publicIp t interface
  let networkName := (Element.group network).displayName
  let subnetReference := resourceReference ResourceKind.subnet.templateType
    [networkName, (Element.group subnet).displayName]
  let ipReferences := ip.toList.map (fun ip =>
    resourceReference ResourceKind.publicIp.templateType [ip.displayName])
  let configuration := Value.ofMembers ([("privateIPAllocationMethod", .string "Dynamic"),
      ("subnet", .ofMembers [("id", .string subnetReference)])]
    ++ ipReferences.map (fun reference =>
      ("publicIPAddress", .ofMembers [("id", .string reference)])))
  return { Resource.named ResourceKind.networkInterface.templateType networkApi
      (Element.node interface).displayName interface.id with
    dependsOn :=
      resourceReference ResourceKind.virtualNetwork.templateType [networkName] :: ipReferences
    properties := .ofMembers [("ipConfigurations", .array [
      .ofMembers [("name", .string "ipconfig1"), ("properties", configuration)]])] }

end NetworkInterface

end CloudCanvas
