import CloudCanvas.Proofs.Export.Network

/-!
# What each kind of element demands

An element of a kind of the catalog contributes to a template exactly if it follows the
rule of its kind.

## Main definitions

* `Topology.Contributes`: an element's parameters and its resource can be had.

The main statements are `Topology.WellFormed.contributes_group_iff` and
`Topology.WellFormed.contributes_node_iff`.
-/

namespace CloudCanvas

variable {t : Topology}

/-! ## Virtual machines -/

namespace VirtualMachine

variable {machine : Node}

theorem exists_parameters_iff : (∃ given, parameters machine = .ok given) ↔
    (Element.node machine).TextOrAbsent "vmSize" ∧
      (Element.node machine).TextOrAbsent "adminUsername" := by
  rw [← Element.exists_textProperty_iff _ "vmSize" "Standard_B2s",
    ← Element.exists_textProperty_iff _ "adminUsername" "azureuser"]
  constructor
  · rintro ⟨given, h⟩
    obtain ⟨size, hSize, h⟩ := bind_eq_ok_iff.1 h
    obtain ⟨username, hUsername, -⟩ := bind_eq_ok_iff.1 h
    exact ⟨⟨size, hSize⟩, username, hUsername⟩
  · rintro ⟨⟨size, hSize⟩, username, hUsername⟩
    exact ⟨_, bind_eq_ok_iff.2 ⟨size, hSize, bind_eq_ok_iff.2 ⟨username, hUsername, rfl⟩⟩⟩

theorem interfaceReferences_eq_nil_iff (wf : t.WellFormed) :
    (interfaceReferences t machine).isEmpty = true ↔
      ¬ ∃ interface, t.LinkedKind machine.id .networkInterface interface := by
  rw [← wf.linkedOfKind_eq_nil_iff, interfaceReferences, List.isEmpty_iff, List.map_eq_nil_iff]

theorem exists_resource_iff (wf : t.WellFormed) : (∃ made, resource t machine = .ok made) ↔
    (∃ interface, t.LinkedKind machine.id .networkInterface interface) ∧
      (Element.node machine).TextOrAbsent "imagePublisher" ∧
        (Element.node machine).TextOrAbsent "imageOffer" ∧
          (Element.node machine).TextOrAbsent "imageSku" := by
  rw [← Element.exists_textProperty_iff _ "imagePublisher" "Canonical",
    ← Element.exists_textProperty_iff _ "imageOffer" "0001-com-ubuntu-server-jammy",
    ← Element.exists_textProperty_iff _ "imageSku" "22_04-lts-gen2", resource]
  by_cases none : (interfaceReferences t machine).isEmpty = true
  · refine iff_of_false ?_ fun h => (interfaceReferences_eq_nil_iff wf).1 none h.1
    rintro ⟨made, h⟩
    simp only [none, if_true] at h
    cases h
  · have linked := not_not.1 (mt (interfaceReferences_eq_nil_iff wf).2 none)
    simp only [none, Bool.false_eq_true, if_false, linked, true_and]
    constructor
    · rintro ⟨made, h⟩
      obtain ⟨publisher, hPublisher, h⟩ := bind_eq_ok_iff.1 h
      obtain ⟨offer, hOffer, h⟩ := bind_eq_ok_iff.1 h
      obtain ⟨sku, hSku, -⟩ := bind_eq_ok_iff.1 h
      exact ⟨⟨publisher, hPublisher⟩, ⟨offer, hOffer⟩, sku, hSku⟩
    · rintro ⟨⟨publisher, hPublisher⟩, ⟨offer, hOffer⟩, sku, hSku⟩
      exact ⟨_, bind_eq_ok_iff.2 ⟨publisher, hPublisher, bind_eq_ok_iff.2 ⟨offer, hOffer,
        bind_eq_ok_iff.2 ⟨sku, hSku, rfl⟩⟩⟩⟩

/-- **A machine contributes if it follows its rule.** -/
theorem contributes_iff (wf : t.WellFormed) :
    ((∃ given, parameters machine = .ok given) ∧ ∃ made, resource t machine = .ok made) ↔
      t.MachineRule machine := by
  rw [exists_parameters_iff, exists_resource_iff wf]
  constructor
  · rintro ⟨⟨size, username⟩, interface, publisher, offer, sku⟩
    exact ⟨interface, by simp [size, username, publisher, offer, sku]⟩
  · rintro ⟨interface, texts⟩
    simp only [List.mem_cons, List.not_mem_nil, or_false, forall_eq_or_imp, forall_eq] at texts
    obtain ⟨size, username, publisher, offer, sku⟩ := texts
    exact ⟨⟨size, username⟩, interface, publisher, offer, sku⟩

end VirtualMachine

/-! ## Storage accounts -/

theorem isUpper_toLower (c : Char) : c.toLower.isUpper = false := by
  delta Char.isUpper Char.toLower
  split <;> grind [UInt32.toNat_add, Char.toNat_val]

/-- A letter or digit in lower case is a small letter or a digit. -/
theorem isAlphanum_toLower (c : Char) :
    c.toLower.isAlphanum = (c.toLower.isLower || c.toLower.isDigit) := by
  change (c.toLower.isUpper || c.toLower.isLower || c.toLower.isDigit) = _
  rw [isUpper_toLower, Bool.false_or]

namespace StorageAccount

variable {account : Node}

theorem isValidName_iff {name : List Char} :
    isValidName (String.ofList (name.map Char.toLower)) = true ↔ Topology.IsAccountName name := by
  simp [isValidName, Topology.IsAccountName, isAlphanum_toLower, and_assoc]

theorem exists_name_iff : (∃ made, name account = .ok made) ↔
    Topology.IsAccountName (Element.node account).displayName.toList := by
  rw [← isValidName_iff, name]
  split <;> simp_all

theorem exists_parameters_iff : (∃ given, parameters account = .ok given) ↔
    (Element.node account).OneOfOrAbsent "sku" storageSkus := by
  rw [parameters, exists_bind_eq_ok_iff,
    ← Element.exists_textProperty_mem_iff (literal_mem_iff (by decide))
      (show "Standard_LRS" ∈ storageSkus by decide)]
  refine exists_congr fun sku => and_congr_right fun _ => ?_
  by_cases known : sku ∈ storageSkus
  · exact iff_of_true ⟨_, by simp [known]; rfl⟩ known
  · refine iff_of_false ?_ known
    rintro ⟨given, h⟩
    simp [known] at h

/-- **An account contributes if it follows its rule.** -/
theorem contributes_iff :
    ((∃ given, parameters account = .ok given) ∧ ∃ made, resource account = .ok made) ↔
      (Element.node account).OneOfOrAbsent "sku" storageSkus ∧
        Topology.IsAccountName (Element.node account).displayName.toList := by
  rw [exists_parameters_iff, ← exists_name_iff, resource, exists_bind_eq_ok_iff]
  exact and_congr_right fun _ => exists_congr fun _ => and_iff_left ⟨_, rfl⟩

end StorageAccount

/-! ## Web apps and their plans -/

theorem AppServicePlan.contributes_iff {plan : Node} :
    (∃ given, parameters plan = .ok given) ↔ (Element.node plan).TextOrAbsent "sku" := by
  rw [← Element.exists_textProperty_iff _ "sku" "F1", parameters, exists_bind_eq_ok_iff]
  exact exists_congr fun _ => and_iff_left ⟨_, rfl⟩

theorem WebApp.plan_eq_ok_iff {app : Node} {plan : Element} :
    WebApp.plan t app = .ok plan ↔ t.linkedOfKind app.id .appServicePlan = [plan] := by
  rw [WebApp.plan]
  split <;> simp_all

theorem WebApp.contributes_iff (wf : t.WellFormed) {app : Node} :
    (∃ made, resource t app = .ok made) ↔ ∃! plan, t.LinkedKind app.id .appServicePlan plan := by
  rw [← wf.linkedOfKind_eq_singleton_iff, resource, exists_bind_eq_ok_iff]
  refine exists_congr fun plan => ?_
  rw [plan_eq_ok_iff]
  exact and_iff_left ⟨_, rfl⟩

/-! ## Every kind -/

/-- The parameters of an element and its resource can be had. -/
def Topology.Contributes (t : Topology) (capability : Capability) : Prop :=
  (∃ given, capability.parameters = .ok given) ∧ ∃ made, capability.resource t = .ok made

namespace Topology.WellFormed

variable (wf : t.WellFormed)
include wf

/-- **A node contributes if it follows the rule of its kind.** -/
theorem contributes_node_iff (node : Node) (kind : ResourceKind) :
    t.Contributes (.ofKind kind (.node node)) ↔ t.NodeRule node kind := by
  have nothing : ∃ given, (Except.ok [] : Except ExportError _) =
      Except.ok (given : List (String × ParameterDefinition)) := ⟨_, rfl⟩
  cases kind with
  | virtualNetwork => simp [Contributes, NodeRule, Capability.ofKind, Capability.parameters]
  | subnet => simp [Contributes, NodeRule, Capability.ofKind, Capability.parameters]
  | networkInterface => exact (and_iff_right nothing).trans (NetworkInterface.contributes_iff wf)
  | publicIp => exact PublicIp.contributes_iff
  | virtualMachine => exact VirtualMachine.contributes_iff wf
  | storageAccount => exact StorageAccount.contributes_iff
  | appServicePlan => exact (and_iff_left ⟨_, rfl⟩).trans AppServicePlan.contributes_iff
  | webApp => exact (and_iff_right nothing).trans (WebApp.contributes_iff wf)

/-- **A group contributes if it is a network that follows its rule.**  A subnet contributes
nothing by itself. -/
theorem contributes_group_iff {group : Group} (h : group ∈ t.groups) (kind : ResourceKind) :
    t.Contributes (.ofKind kind (.group group)) ↔
      kind = .virtualNetwork ∧ t.NetworkRule group := by
  cases kind with
  | virtualNetwork =>
      exact (VirtualNetwork.contributes_iff wf h).trans (and_iff_right rfl).symm
  | _ => simp [Contributes, Capability.ofKind, Capability.parameters]

end Topology.WellFormed

end CloudCanvas
