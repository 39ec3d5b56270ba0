import CloudCanvas.Proofs.Export.Texts
import CloudCanvas.Proofs.Template.Expression
import CloudCanvas.Proofs.Template.Texts

/-!
# What the resource of each kind says

Every resource has the type of its kind, is named by a literal, and has exactly the
expressions of its kind in it: where it is deployed, the parameters that it asks for and
the resources that it refers to.

## Main definitions

* `Reference`: the kind of a resource and the names that tell it apart.
* `Resource.IsMadeOf`: the type, the name and the expressions of a resource.
* `Resource.subnets`: what a resource lists as its subnets.
-/

namespace CloudCanvas

variable {t : Topology}

/-- What a resource refers to: the kind of another and the names that tell it apart. -/
abbrev Reference := ResourceKind × List String

/-- How a reference is written. -/
def Reference.text (reference : Reference) : String :=
  resourceReference reference.1.templateType reference.2

namespace Resource

/-- What a resource lists as its subnets. -/
def subnets (r : Resource) : List Json :=
  r.properties.json.itemsAt ["subnets"]

/-- **What is made of an element**: a resource of the type of its kind, named by a literal,
in which nothing is evaluated but where it is deployed, the parameters it asks for and the
references to other resources.  Only a network lists subnets. -/
structure IsMadeOf (r : Resource) (kind : ResourceKind) (name id : String)
    (parameters : List String) (references : List Reference) : Prop where
  type_eq : r.type = kind.templateType
  name_eq : r.name = literal name
  element_eq : r.element = id
  evaluated : ∀ s, isEvaluated s = true → (s ∈ r.json.texts ↔ s = locationExpression ∨
    (∃ parameter ∈ parameters, s = parameterReference parameter) ∨
      ∃ reference ∈ references, s = reference.text)
  subnets_eq : kind ≠ .virtualNetwork → r.subnets = []

/-- A resource without a list of subnets lists none. -/
theorem subnets_eq_nil {r : Resource} {members : List (String × Value)}
    (eq : r.properties = .ofMembers members) (nodup : (members.map Prod.fst).Nodup)
    (absent : members.lookup "subnets" = none) : r.subnets = [] := by
  have none : r.properties.json.field? "subnets" = none := by
    rw [eq, Value.field?_ofMembers nodup, absent, Option.map_none]
  rw [subnets, Json.itemsAt, Json.at?_cons, none, Option.bind_none]

end Resource

/-! ## Texts that are not evaluated -/

/-- An evaluated string is none that is not. -/
theorem ne_of_isEvaluated {s other : String} (evaluated : isEvaluated s = true)
    (h : isEvaluated other = false) : s ≠ other := by
  intro eq
  rw [eq, h] at evaluated
  cases evaluated

theorem isEvaluated_of_textProperty {element : Element} {name default text : String}
    (h : element.textProperty name default = .ok text) : isEvaluated text = false := by
  rcases Element.textProperty_eq_ok_iff.1 h with ⟨-, rfl⟩ | ⟨given, -, rfl⟩
  · exact isEvaluated_literal default
  · exact isEvaluated_literal given

theorem isEvaluated_of_carveSubnet {space range : String} {ordinal : ℕ}
    (h : carveSubnet space ordinal = some range) : isEvaluated range = false := by
  simp only [carveSubnet, Option.bind_eq_bind, Option.bind_eq_some_iff] at h
  obtain ⟨parsed, -, h⟩ := h
  split at h
  · cases h
    simp [isEvaluated, isBracketed]
  · cases h

namespace Subnet

variable {subnet : Group} {space : String} {ordinal : ℕ}

theorem isEvaluated_addressPrefix {range : String}
    (h : addressPrefix subnet space ordinal = .ok range) : isEvaluated range = false := by
  rw [addressPrefix] at h
  split at h
  · exact isEvaluated_of_textProperty h
  · split at h
    · rename_i carved
      cases h
      exact isEvaluated_of_carveSubnet carved
    · cases h

/-- Nothing in the entry of a subnet is evaluated. -/
theorem isEvaluated_entry {entry : Value} (h : Subnet.entry subnet space ordinal = .ok entry)
    {s : String} (mem : s ∈ entry.json.texts) : isEvaluated s = false := by
  rw [Subnet.entry, bind_eq_ok_iff] at h
  obtain ⟨range, hRange, h⟩ := h
  cases h
  have plain := isEvaluated_addressPrefix hRange
  by_contra evaluated
  rw [Bool.not_eq_false] at evaluated
  simp (disch := first | simp | decide | assumption)
    [Value.mem_texts_ofMembers, ne_of_isEvaluated evaluated] at mem

end Subnet

/-! ## Networks -/

namespace VirtualNetwork

variable {network : Group} {space : String}

/-- Nothing in the entries of the subnets is evaluated. -/
theorem isEvaluated_entries {seen : List String} {ordinal : ℕ} {subnets : List Group}
    {listed : List Value} (h : entries network space seen ordinal subnets = .ok listed)
    {s : String} {found : Value} (mem : found ∈ listed) (text : s ∈ found.json.texts) :
    isEvaluated s = false := by
  induction subnets generalizing seen ordinal listed with
  | nil =>
      cases h
      simp at mem
  | cons subnet rest ih =>
      rw [entries] at h
      split at h
      · cases h
      · simp only [bind_eq_ok_iff] at h
        obtain ⟨entry, first, later, others, h⟩ := h
        cases h
        rcases List.mem_cons.1 mem with rfl | mem
        · exact Subnet.isEvaluated_entry first text
        · exact ih others mem

theorem map_fst_parameters {given : List (String × ParameterDefinition)}
    (h : parameters network = .ok given) : given.map Prod.fst = [prefixParameter network] := by
  obtain ⟨_, -, h⟩ := bind_eq_ok_iff.1 h
  cases h
  rfl

/-- What a network becomes: it lists its subnets. -/
theorem resource_spec {r : Resource} (h : resource t network = .ok r) :
    r.IsMadeOf .virtualNetwork (Element.group network).displayName network.id
      [prefixParameter network] [] ∧
    ∃ space listed, addressSpace network = .ok space ∧
      entries network space [] 0 (subnets t network) = .ok listed ∧
      r.subnets = listed.map (·.json) := by
  simp only [resource, bind_eq_ok_iff] at h
  obtain ⟨space, hSpace, listed, hListed, h⟩ := h
  cases h
  refine ⟨⟨rfl, rfl, rfl, fun s hs => ?_, fun other => absurd rfl other⟩,
    space, listed, hSpace, hListed, ?_⟩
  · -- the texts that are fixed are not evaluated, and neither is what the entries say
    have plain : ¬ ∃ entry ∈ listed, s ∈ entry.json.texts := fun ⟨_, mem, text⟩ =>
      ne_of_isEvaluated hs (isEvaluated_entries hListed mem text) rfl
    simp (disch := first | simp | decide) [Resource.mem_texts_json, Resource.named,
      Value.mem_texts_ofMembers, ne_of_isEvaluated hs, plain]
  · simp (disch := simp) [Resource.subnets, Json.itemsAt, Value.field?_ofMembers,
      List.lookup_cons]

end VirtualNetwork

/-! ## Public addresses -/

namespace PublicIp

variable {ip : Node}

theorem map_fst_parameters {given : List (String × ParameterDefinition)}
    (h : parameters ip = .ok given) : given.map Prod.fst = [parameterName ip.id "allocation"] := by
  obtain ⟨_, -, h⟩ := bind_eq_ok_iff.1 h
  split at h <;> cases h
  rfl

theorem isMadeOf {r : Resource} (h : resource ip = .ok r) :
    r.IsMadeOf .publicIp (Element.node ip).displayName ip.id
      [parameterName ip.id "allocation"] [] := by
  rw [resource, bind_eq_ok_iff] at h
  obtain ⟨sku, hSku, h⟩ := h
  cases h
  refine ⟨rfl, rfl, rfl, fun s hs => ?_, fun _ => ?_⟩
  · have plain := ne_of_isEvaluated hs (isEvaluated_of_textProperty hSku)
    simp (disch := first | simp | decide) [Resource.mem_texts_json, Resource.named,
      Value.mem_texts_ofMembers, ne_of_isEvaluated hs, plain]
  · exact Resource.subnets_eq_nil rfl (by simp) (by simp [List.lookup_cons])

end PublicIp

/-! ## Interfaces -/

namespace NetworkInterface

variable {interface : Node}

/-- How the network of an interface is referred to. -/
def networkReference (outer : Group) : String :=
  Reference.text (.virtualNetwork, [(Element.group outer).displayName])

/-- How the subnet of an interface is referred to. -/
def subnetReference (outer inner : Group) : String :=
  Reference.text (.subnet, [(Element.group outer).displayName, (Element.group inner).displayName])

/-- How the public address of an interface is referred to. -/
def ipReference (ip : Element) : String :=
  Reference.text (.publicIp, [ip.displayName])

/-- What an interface refers to: its network, its subnet and its public address. -/
def references (inner outer : Group) (ip : Option Element) : List Reference :=
  (.virtualNetwork, [(Element.group outer).displayName]) ::
    (.subnet, [(Element.group outer).displayName, (Element.group inner).displayName]) ::
      ip.toList.map (fun ip => (.publicIp, [ip.displayName]))

/-- What an interface becomes: it waits for its network and for its public address, and has
one configuration, with its subnet and its public address if there is one. -/
theorem resource_spec {r : Resource} (h : resource t interface = .ok r) :
    ∃ inner outer ip, subnet t interface = .ok inner ∧ network t interface inner = .ok outer ∧
      publicIp t interface = .ok ip ∧
      r.IsMadeOf .networkInterface (Element.node interface).displayName interface.id []
        (references inner outer ip) ∧
      r.dependsOn = networkReference outer :: ip.toList.map ipReference ∧
      ∃ configuration, r.properties.json.itemsAt ["ipConfigurations"] = [configuration] ∧
        configuration.textAt? ["properties", "subnet", "id"] =
          some (subnetReference outer inner) ∧
        (configuration.at? ["properties", "publicIPAddress"]).isSome = ip.isSome ∧
        configuration.textAt? ["properties", "publicIPAddress", "id"] = ip.map ipReference := by
  simp only [resource, bind_eq_ok_iff] at h
  obtain ⟨inner, hInner, outer, hOuter, ip, hIp, h⟩ := h
  cases h
  refine ⟨inner, outer, ip, hInner, hOuter, hIp,
    ⟨rfl, rfl, rfl, fun s hs => ?_, fun _ => ?_⟩, rfl, ?_⟩
  · cases ip with
    | none =>
        simp (disch := first | simp | decide) [Resource.mem_texts_json, Resource.named,
          Value.mem_texts_ofMembers, ne_of_isEvaluated hs, references, Reference.text]
    | some ip =>
        simp (disch := first | simp | decide) [Resource.mem_texts_json, Resource.named,
          Value.mem_texts_ofMembers, ne_of_isEvaluated hs, references, Reference.text]
        grind
  · exact Resource.subnets_eq_nil rfl (by simp) (by simp [List.lookup_cons])
  · cases ip <;>
      simp (disch := simp) [Json.itemsAt, Json.textAt?, Value.field?_ofMembers,
        List.lookup_cons, subnetReference, ipReference, Reference.text]

end NetworkInterface

/-! ## Machines -/

namespace VirtualMachine

variable {machine : Node}

theorem map_fst_parameters {given : List (String × ParameterDefinition)}
    (h : parameters machine = .ok given) :
    given.map Prod.fst = [sizeParameter machine, adminUsername, adminPassword] := by
  obtain ⟨_, -, h⟩ := bind_eq_ok_iff.1 h
  obtain ⟨_, -, h⟩ := bind_eq_ok_iff.1 h
  cases h
  rfl

/-- What a machine refers to: its interfaces. -/
def references (t : Topology) (machine : Node) : List Reference :=
  (t.linkedOfKind machine.id .networkInterface).map
    (fun interface => (.networkInterface, [interface.displayName]))

theorem interfaceReferences_eq :
    interfaceReferences t machine = (references t machine).map Reference.text := by
  simp [interfaceReferences, references, Reference.text, Function.comp_def]

theorem mem_texts_interfaceEntries {s : String} {listed : List String} :
    (∃ entry ∈ interfaceEntries listed, s ∈ entry.json.texts) ↔ s ∈ listed := by
  have one : ∀ primary text, s ∈ (interfaceEntry primary text).json.texts ↔ s = text := by
    intro primary text
    simp (disch := simp) [interfaceEntry, Value.mem_texts_ofMembers, Json.texts]
  cases listed with
  | nil => simp [interfaceEntries]
  | cons first others => simp [interfaceEntries, one]

/-- A machine has an entry for each reference. -/
theorem textAt?_interfaceEntries (listed : List String) :
    (interfaceEntries listed).map (·.json.textAt? ["id"]) = listed.map some := by
  have one : ∀ primary text, (interfaceEntry primary text).json.textAt? ["id"] = some text := by
    intro primary text
    simp (disch := simp) [interfaceEntry, Json.textAt?, Value.field?_ofMembers]
  cases listed with
  | nil => rfl
  | cons first others => simp [interfaceEntries, one, Function.comp_def]

/-- The first entry of a machine is primary, and no other. -/
theorem primary_interfaceEntries {listed : List String} {i : ℕ} {entry : Value}
    (h : (interfaceEntries listed)[i]? = some entry) :
    entry.json.at? ["properties", "primary"] = some (.bool (decide (i = 0))) := by
  have one : ∀ primary text, (interfaceEntry primary text).json.at? ["properties", "primary"] =
      some (.bool primary) := by
    intro primary text
    simp (disch := simp) [interfaceEntry, Value.field?_ofMembers, List.lookup_cons]
  cases listed with
  | nil => simp [interfaceEntries] at h
  | cons first others =>
      cases i with
      | zero =>
          obtain rfl : interfaceEntry true first = entry := by simpa [interfaceEntries] using h
          simpa using one true first
      | succ i =>
          rw [interfaceEntries, List.getElem?_cons_succ, List.getElem?_map] at h
          obtain ⟨text, -, rfl⟩ := Option.map_eq_some_iff.1 h
          simpa using one false text

/-- What a machine becomes: it waits for its interfaces and lists them. -/
theorem resource_spec {r : Resource} (h : resource t machine = .ok r) :
    r.IsMadeOf .virtualMachine (Element.node machine).displayName machine.id
      [sizeParameter machine, adminUsername, adminPassword] (references t machine) ∧
    r.dependsOn = interfaceReferences t machine ∧
    r.properties.json.itemsAt ["networkProfile", "networkInterfaces"] =
      (interfaceEntries (interfaceReferences t machine)).map (·.json) := by
  rw [resource] at h
  split at h
  · cases h
  · simp only [bind_eq_ok_iff] at h
    obtain ⟨publisher, hPublisher, offer, hOffer, sku, hSku, h⟩ := h
    cases h
    refine ⟨⟨rfl, rfl, rfl, fun s hs => ?_, fun _ => ?_⟩, rfl, ?_⟩
    · have plain : s ≠ publisher ∧ s ≠ offer ∧ s ≠ sku :=
        ⟨ne_of_isEvaluated hs (isEvaluated_of_textProperty hPublisher),
          ne_of_isEvaluated hs (isEvaluated_of_textProperty hOffer),
          ne_of_isEvaluated hs (isEvaluated_of_textProperty hSku)⟩
      have interfaces : s ∈ interfaceReferences t machine ↔
          ∃ reference ∈ references t machine, s = reference.text := by
        simp [interfaceReferences_eq, eq_comm]
      simp (disch := first | simp | decide) [Resource.mem_texts_json, Resource.named,
        Value.mem_texts_ofMembers, ne_of_isEvaluated hs, plain, mem_texts_interfaceEntries,
        interfaces]
      grind
    · exact Resource.subnets_eq_nil rfl (by simp) (by simp [List.lookup_cons])
    · simp (disch := simp) [Json.itemsAt, Value.field?_ofMembers, List.lookup_cons]

end VirtualMachine

/-! ## Plans -/

namespace AppServicePlan

theorem map_fst_parameters {plan : Node} {given : List (String × ParameterDefinition)}
    (h : parameters plan = .ok given) : given.map Prod.fst = [skuParameter plan] := by
  obtain ⟨_, -, h⟩ := bind_eq_ok_iff.1 h
  cases h
  rfl

theorem isMadeOf (plan : Node) : (resource plan).IsMadeOf .appServicePlan
    (Element.node plan).displayName plan.id [skuParameter plan] [] where
  type_eq := rfl
  name_eq := rfl
  element_eq := rfl
  evaluated s hs := by
    simp (disch := first | simp | decide) [Resource.mem_texts_json, resource, Resource.named,
      Value.mem_texts_ofMembers, ne_of_isEvaluated hs]
  subnets_eq _ := Resource.subnets_eq_nil rfl .nil rfl

end AppServicePlan

/-! ## Storage accounts -/

namespace StorageAccount

variable {account : Node}

theorem map_fst_parameters {given : List (String × ParameterDefinition)}
    (h : parameters account = .ok given) : given.map Prod.fst = [skuParameter account] := by
  obtain ⟨_, -, h⟩ := bind_eq_ok_iff.1 h
  split at h <;> cases h
  rfl

theorem isMadeOf {r : Resource} (h : resource account = .ok r) :
    ∃ name, StorageAccount.name account = .ok name ∧
      r.IsMadeOf .storageAccount name account.id [skuParameter account] [] := by
  rw [resource, bind_eq_ok_iff] at h
  obtain ⟨name, hName, h⟩ := h
  cases h
  refine ⟨name, hName, rfl, rfl, rfl, fun s hs => ?_, fun _ => ?_⟩
  · have version : "StorageV2" ≠ s := (ne_of_isEvaluated hs (by decide)).symm
    simp (disch := first | simp | decide) [Resource.mem_texts_json, Resource.named,
      Value.mem_texts_ofMembers, ne_of_isEvaluated hs, version]
  · exact Resource.subnets_eq_nil rfl (by simp) (by simp [List.lookup_cons])

end StorageAccount

/-! ## Web apps -/

namespace WebApp

variable {app : Node}

/-- What an app becomes: it waits for its plan and runs on it. -/
theorem resource_spec {r : Resource} (h : resource t app = .ok r) :
    ∃ plan, WebApp.plan t app = .ok plan ∧
      r.IsMadeOf .webApp (Element.node app).displayName app.id []
        [(.appServicePlan, [plan.displayName])] ∧
      r.dependsOn = [Reference.text (.appServicePlan, [plan.displayName])] ∧
      r.properties.json.textAt? ["serverFarmId"] =
        some (Reference.text (.appServicePlan, [plan.displayName])) := by
  rw [resource, bind_eq_ok_iff] at h
  obtain ⟨plan, hPlan, h⟩ := h
  cases h
  refine ⟨plan, hPlan, ⟨rfl, rfl, rfl, fun s hs => ?_, fun _ => ?_⟩, rfl, ?_⟩
  · simp (disch := first | simp | decide) [Resource.mem_texts_json, Resource.named,
      Value.mem_texts_ofMembers, ne_of_isEvaluated hs, Reference.text]
  · exact Resource.subnets_eq_nil rfl (by simp) (by simp [List.lookup_cons])
  · simp (disch := simp) [Json.textAt?, Value.field?_ofMembers, Reference.text]

end WebApp

end CloudCanvas
