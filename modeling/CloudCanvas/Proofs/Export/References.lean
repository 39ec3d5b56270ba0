import CloudCanvas.Proofs.Export.Parameters
import CloudCanvas.Proofs.Export.Subnets

/-!
# References lead to resources

A reference in a template is read as a type and names.  In a template that was built every
reference leads to the resource of the element that it was written for: one that a link joins
to the referring element, or the network or the subnet around it.  What is written into an
expression with its quotes doubled and what is written as a literal with its bracket doubled
are read as the same name.

## Main definitions

* `Template.RefersTo`, `Template.RefersToSubnet`: a string leads to a resource, or to an entry
  of a network.
* `Topology.Resolves`: a reference of an element leads where the drawing says.
* `Build.Wired`: all references of a template do, and the fields that hold them are complete.

The main statement is `Topology.wired_of_build`.
-/

namespace CloudCanvas

/-- A string leads to the resource of an element: it is read as the type and the name of this
resource. -/
def Template.RefersTo (template : Template) (s : String) (target : Element) : Prop :=
  ∃ r ∈ template.resources, r.element = target.id ∧
    ∃ kind : ResourceKind, target.kind = kind.tag ∧ r.type = kind.templateType ∧
      readReference? s = some (kind.templateType, [plainText r.name])

/-- The names of the subnets that a resource lists. -/
def Resource.subnetNames (r : Resource) : List (Option String) :=
  r.subnets.map (fun entry => (entry.textAt? ["name"]).map plainText)

/-- A string leads to the entry of a subnet in a network: it is read as the type of subnets,
the name of the resource of the network, and a name that just one entry of this resource has,
which is about the subnet. -/
def Template.RefersToSubnet (template : Template) (s : String) (network subnet : Group) : Prop :=
  ∃ r ∈ template.resources, r.element = network.id ∧
    r.type = ResourceKind.virtualNetwork.templateType ∧
      ∃ entry ∈ r.subnets, Subnet.IsListedAs subnet entry ∧
        ∃ name, entry.textAt? ["name"] = some name ∧
          r.subnetNames.count (some (plainText name)) = 1 ∧
            readReference? s =
              some (ResourceKind.subnet.templateType, [plainText r.name, plainText name])

/-- Where a subnet lies and what lies in it, both directly. -/
structure Topology.Encloses (t : Topology) (network subnet : Group) (inner : Element) : Prop where
  inner : t.IsDirectlyInside inner .subnet subnet
  outer : t.IsDirectlyInside (.group subnet) .virtualNetwork network

/-- **A reference of an element leads where the drawing says**: to an element that a link joins
to it, or to the network or the subnet around it. -/
inductive Topology.Resolves (t : Topology) (template : Template) (source : Element)
    (s : String) : Prop
  | linked {kind : ResourceKind} {target : Element} (linked : t.LinkedKind source.id kind target)
      (refers : template.RefersTo s target)
  | network {network subnet : Group} (encloses : t.Encloses network subnet source)
      (refers : template.RefersTo s (.group network))
  | subnet {network subnet : Group} (encloses : t.Encloses network subnet source)
      (refers : template.RefersToSubnet s network subnet)

/-- The resource of a machine lists interfaces: it waits for them and has an entry for each, of
which the first is primary and no other. -/
structure Resource.ListsInterfaces (r : Resource) (template : Template)
    (interfaces : List Element) : Prop where
  dependsOn : List.Forall₂ template.RefersTo r.dependsOn interfaces
  entries : (r.properties.json.itemsAt ["networkProfile", "networkInterfaces"]).map
    (·.textAt? ["id"]) = r.dependsOn.map some
  primary : ∀ (i : ℕ) (entry : Json),
    (r.properties.json.itemsAt ["networkProfile", "networkInterfaces"])[i]? = some entry →
      entry.at? ["properties", "primary"] = some (.bool (decide (i = 0)))

/-- The resource of an interface has one configuration: its subnet is the one around the
interface, and it has a public address if one is linked, which then is this one. -/
def Resource.HasConfiguration (r : Resource) (t : Topology) (template : Template)
    (interface : Node) : Prop :=
  ∃ configuration, r.properties.json.itemsAt ["ipConfigurations"] = [configuration] ∧
    (∃ network subnet s, t.Encloses network subnet (.node interface) ∧
      configuration.textAt? ["properties", "subnet", "id"] = some s ∧
        template.RefersToSubnet s network subnet) ∧
    ((configuration.at? ["properties", "publicIPAddress"]).isSome ↔
      ∃ ip, t.LinkedKind interface.id .publicIp ip) ∧
    ∀ ip, t.LinkedKind interface.id .publicIp ip → ∃ s,
      configuration.textAt? ["properties", "publicIPAddress", "id"] = some s ∧
        template.RefersTo s ip

/-- **The references of a template lead where the drawing says.**  Whatever is evaluated stands
in a resource and is the place of deployment, a parameter or a reference, and each reference
leads from the element of its resource to another.  Machines list the interfaces that are
linked to them in the order of the links, interfaces have the subnet around them and the public
address that is linked to them, and apps run on the plan that is linked to them. -/
structure Build.Wired (b : Build) (t : Topology) : Prop where
  evaluated : ∀ s ∈ b.template.json.texts, isEvaluated s = true →
    (∃ r ∈ b.template.resources, s ∈ r.json.texts) ∧
      (s = locationExpression ∨ (∃ name, readParameter? s = some name) ∨ IsCallOf "resourceId" s)
  resolves : ∀ r ∈ b.template.resources, ∀ s ∈ r.json.texts, IsCallOf "resourceId" s →
    ∃ source ∈ t.elements, r.element = source.id ∧ t.Resolves b.template source s
  machines : ∀ machine ∈ t.nodes, machine.kind = ResourceKind.virtualMachine.tag →
    ∃ r ∈ b.template.resources, r.element = machine.id ∧ ∃ interfaces : List Element,
      interfaces ≠ [] ∧
      (∀ element, element ∈ interfaces ↔ t.LinkedKind machine.id .networkInterface element) ∧
      interfaces.Pairwise
        (fun a b => t.firstLink machine.id a.id < t.firstLink machine.id b.id) ∧
      r.ListsInterfaces b.template interfaces
  interfaces : ∀ interface ∈ t.nodes, interface.kind = ResourceKind.networkInterface.tag →
    ∃ r ∈ b.template.resources, r.element = interface.id ∧
      r.HasConfiguration t b.template interface
  apps : ∀ app ∈ t.nodes, app.kind = ResourceKind.webApp.tag →
    ∃ r ∈ b.template.resources, r.element = app.id ∧ ∃ plan s,
      t.LinkedKind app.id .appServicePlan plan ∧ r.dependsOn = [s] ∧
        r.properties.json.textAt? ["serverFarmId"] = some s ∧ b.template.RefersTo s plan

/-! ## Texts that are not references -/

/-- In a resource that was made of an element every reference is one of those that belong to
it. -/
theorem Resource.IsMadeOf.exists_reference {r : Resource} {kind : ResourceKind}
    {name id s : String} {parameters : List String} {references : List Reference}
    (h : r.IsMadeOf kind name id parameters references) (mem : s ∈ r.json.texts)
    (call : IsCallOf "resourceId" s) : ∃ reference ∈ references, s = reference.text := by
  rcases (h.evaluated s call.1).1 mem with rfl | ⟨parameter, -, rfl⟩ | found
  · exact absurd call not_isCallOf_locationExpression
  · exact absurd call (not_isCallOf_parameterReference parameter)
  · exact found

namespace Topology

variable {t : Topology} {b : Build} {element : Element} {kind : ResourceKind}
  {given : List (String × ParameterDefinition)} {made : Resource}

/-- **Whatever is evaluated stands in a resource.** -/
theorem exists_resource_of_isEvaluated (built : t.build = .ok (some b)) {s : String}
    (mem : s ∈ b.template.json.texts) (evaluated : isEvaluated s = true) :
    ∃ r ∈ b.template.resources, s ∈ r.json.texts := by
  obtain ⟨contributions, h⟩ := exists_contributions built
  have plain : isEvaluated b.template.schema = false ∧
      isEvaluated b.template.contentVersion = false := by
    rw [h.template_eq]
    show isEvaluated Template.deploymentSchema = false ∧ isEvaluated "1.0.0.0" = false
    decide
  rcases Template.mem_texts_json.1 mem with schema | version | ⟨entry, listed, text⟩ | found
  · exact absurd schema (ne_of_isEvaluated evaluated plain.1)
  · exact absurd version (ne_of_isEvaluated evaluated plain.2)
  · obtain ⟨c, made, given⟩ := h.exists_mem_of_get? (Dict.mem_entries_iff.1 listed)
    have plain := ((h.made c made).2.ofTexts_parameters _ given).plain s text
    rw [evaluated] at plain
    cases plain
  · exact found

/-! ## Where references lead -/

namespace WellFormed

variable (wf : t.WellFormed)
include wf

/-- The public address of an interface is the one that is linked to it. -/
theorem linkedKind_publicIp_iff {interface : Node} {ip : Option Element}
    (h : NetworkInterface.publicIp t interface = .ok ip) {target : Element} :
    t.LinkedKind interface.id .publicIp target ↔ ip = some target := by
  rw [← wf.mem_linkedOfKind_iff]
  rw [NetworkInterface.publicIp] at h
  split at h
  · rename_i linked
    cases h
    simp [linked]
  · rename_i linked
    cases h
    simp [linked, eq_comm]
  · cases h

/-- The subnet of an interface and the network of this subnet lie around it. -/
theorem encloses {interface : Node} {inner outer : Group}
    (h : NetworkInterface.subnet t interface = .ok inner)
    (h' : NetworkInterface.network t interface inner = .ok outer) :
    t.Encloses outer inner (.node interface) :=
  ⟨(NetworkInterface.subnet_eq_ok_iff wf).1 h, (NetworkInterface.network_eq_ok_iff wf).1 h'⟩

theorem linkedKind_of_plan {app : Node} {plan : Element} (h : WebApp.plan t app = .ok plan) :
    t.LinkedKind app.id .appServicePlan plan := by
  rw [← wf.mem_linkedOfKind_iff, WebApp.plan_eq_ok_iff.1 h]
  exact List.mem_singleton_self plan

variable (built : t.build = .ok (some b))
include built

/-- **What is written for an element leads to its resource.** -/
theorem refersTo {target : Element} (mem : target ∈ t.elements) (h : target.kind = kind.tag)
    (ne : kind ≠ .subnet) (named : kind ≠ .storageAccount) :
    b.template.RefersTo (Reference.text (kind, [target.displayName])) target := by
  obtain ⟨given, r, listed, makes⟩ := wf.exists_resource built mem h ne
  obtain ⟨name, references, isMadeOf, nameEq⟩ := makes.exists_isMadeOf
  refine ⟨r, listed, isMadeOf.element_eq, kind, h, isMadeOf.type_eq, ?_⟩
  rw [isMadeOf.name_eq, plainText_literal, nameEq named]
  exact readReference?_resourceReference _ (by simp)

theorem refersTo_of_linkedKind {id : String} {target : Element} (h : t.LinkedKind id kind target)
    (ne : kind ≠ .subnet) (named : kind ≠ .storageAccount) :
    b.template.RefersTo (Reference.text (kind, [target.displayName])) target :=
  wf.refersTo built h.1 h.2.1 ne named

theorem refersTo_of_encloses {network subnet : Group} {inner : Element}
    (h : t.Encloses network subnet inner) : b.template.RefersTo
      (NetworkInterface.networkReference network) (.group network) :=
  wf.refersTo built (group_mem_elements h.outer.1) h.outer.2.2 (by decide) (by decide)

/-- **What is written for a subnet leads to its entry.** -/
theorem refersToSubnet {network subnet : Group} {inner : Element}
    (h : t.Encloses network subnet inner) : b.template.RefersToSubnet
      (NetworkInterface.subnetReference network subnet) network subnet := by
  have known := group_mem_elements h.outer.1
  obtain ⟨given, r, listed', makes⟩ := wf.exists_resource built known h.outer.2.2 (by decide)
  obtain ⟨name, references, isMadeOf, nameEq⟩ := makes.exists_isMadeOf
  have entries := wf.forall₂_subnets known makes
  have names : r.subnetNames =
      (t.subnetsIn network).map (fun subnet => some (Element.group subnet).displayName) := by
    rw [Element.id, wf.subnetChildren_group h.outer.1] at entries
    rw [Resource.subnetNames, eq_comm, ← List.forall₂_eq_eq_eq, List.forall₂_map_left_iff,
      List.forall₂_map_right_iff]
    exact entries.imp fun subnet entry listed => listed.name_eq.symm
  -- the rule of a network keeps the names of its subnets apart, so one entry has the name
  have different : r.subnetNames.Nodup := by
    have rule := (wf.exportable_of_build built).groups network h.outer.1 .virtualNetwork h.outer.2.2
    have nodup := rule.names_nodup.map (Option.some_injective String)
    rw [List.map_map] at nodup
    rw [names]
    exact nodup
  have inside : subnet ∈ t.subnetChildren network.id :=
    (wf.mem_subnetChildren_iff known).2
      ⟨mem_subnets.2 ⟨h.inner.1, h.inner.2.2⟩, h.outer.2.1⟩
  obtain ⟨entry, listed, about⟩ := exists_mem_of_forall₂ entries inside
  obtain ⟨text, found, read⟩ := Option.map_eq_some_iff.1 about.name_eq
  have mem : some (plainText text) ∈ r.subnetNames :=
    List.mem_map.2 ⟨entry, listed, by rw [found, Option.map_some]⟩
  refine ⟨r, listed', isMadeOf.element_eq, isMadeOf.type_eq, entry, listed, about, text, found,
    List.count_eq_one_of_mem different mem, ?_⟩
  rw [isMadeOf.name_eq, plainText_literal, nameEq (by decide), read]
  exact readReference?_resourceReference _ (by simp)

/-- **Every reference in the resource of an element leads where the drawing says.** -/
theorem resolves (h : t.Makes element kind given made) {s : String}
    (text : s ∈ made.json.texts) (call : IsCallOf "resourceId" s) :
    t.Resolves b.template element s := by
  -- only interfaces, machines and apps refer to anything
  cases h with
  | virtualNetwork _ resource =>
      have isMadeOf := (VirtualNetwork.resource_spec resource).1
      simpa using isMadeOf.exists_reference text call
  | networkInterface resource =>
      obtain ⟨inner, outer, ip, hInner, hOuter, hIp, isMadeOf, -⟩ :=
        NetworkInterface.resource_spec resource
      have encloses := wf.encloses hInner hOuter
      obtain ⟨reference, mem, rfl⟩ := isMadeOf.exists_reference text call
      rcases List.mem_cons.1 mem with rfl | mem
      · exact .network encloses (wf.refersTo_of_encloses built encloses)
      · rcases List.mem_cons.1 mem with rfl | mem
        · exact .subnet encloses (wf.refersToSubnet built encloses)
        · obtain ⟨target, found, rfl⟩ := List.mem_map.1 mem
          have linked := (wf.linkedKind_publicIp_iff hIp).2 (Option.mem_toList.1 found)
          exact .linked linked (wf.refersTo_of_linkedKind built linked (by decide) (by decide))
  | publicIp _ resource =>
      simpa using (PublicIp.isMadeOf resource).exists_reference text call
  | virtualMachine _ resource =>
      have isMadeOf := (VirtualMachine.resource_spec resource).1
      obtain ⟨reference, mem, rfl⟩ := isMadeOf.exists_reference text call
      obtain ⟨interface, linked, rfl⟩ := List.mem_map.1 mem
      have linked := wf.mem_linkedOfKind_iff.1 linked
      exact .linked linked (wf.refersTo_of_linkedKind built linked (by decide) (by decide))
  | storageAccount _ resource =>
      obtain ⟨_, -, isMadeOf⟩ := StorageAccount.isMadeOf resource
      simpa using isMadeOf.exists_reference text call
  | appServicePlan =>
      simpa using (AppServicePlan.isMadeOf _).exists_reference text call
  | webApp resource =>
      obtain ⟨plan, hPlan, isMadeOf, -⟩ := WebApp.resource_spec resource
      obtain ⟨reference, mem, rfl⟩ := isMadeOf.exists_reference text call
      obtain rfl := List.mem_singleton.1 mem
      have linked := wf.linkedKind_of_plan hPlan
      exact .linked linked (wf.refersTo_of_linkedKind built linked (by decide) (by decide))

/-! ## The fields that hold references -/

theorem listsInterfaces {machine : Node} {r : Resource}
    (h : VirtualMachine.resource t machine = .ok r) :
    r.ListsInterfaces b.template (t.linkedOfKind machine.id .networkInterface) := by
  obtain ⟨-, dependsOn, entries⟩ := VirtualMachine.resource_spec h
  constructor
  · rw [dependsOn, VirtualMachine.interfaceReferences, List.forall₂_map_left_iff, List.forall₂_same]
    intro interface mem
    exact wf.refersTo_of_linkedKind built (wf.mem_linkedOfKind_iff.1 mem) (by decide) (by decide)
  · rw [entries, dependsOn, List.map_map]
    exact VirtualMachine.textAt?_interfaceEntries _
  · intro i entry found
    rw [entries, List.getElem?_map] at found
    obtain ⟨value, listed, rfl⟩ := Option.map_eq_some_iff.1 found
    exact VirtualMachine.primary_interfaceEntries listed

theorem hasConfiguration {interface : Node} {r : Resource}
    (h : NetworkInterface.resource t interface = .ok r) :
    r.HasConfiguration t b.template interface := by
  obtain ⟨inner, outer, ip, hInner, hOuter, hIp, -, -, configuration, one, subnet, there,
    address⟩ := NetworkInterface.resource_spec h
  have encloses := wf.encloses hInner hOuter
  have linked : ∀ element, t.LinkedKind interface.id .publicIp element ↔ ip = some element :=
    fun element => wf.linkedKind_publicIp_iff hIp
  refine ⟨configuration, one, ⟨outer, inner, _, encloses, subnet,
    wf.refersToSubnet built encloses⟩, ?_, fun element joined => ?_⟩
  · rw [there, Option.isSome_iff_exists]
    exact exists_congr fun element => (linked element).symm
  · refine ⟨NetworkInterface.ipReference element, ?_,
      wf.refersTo_of_linkedKind built joined (by decide) (by decide)⟩
    rw [address, (linked element).1 joined, Option.map_some]

end WellFormed

/-- **No reference dangles.** -/
theorem wired_of_build (reachable : t.Reachable) (built : t.build = .ok (some b)) :
    b.Wired t := by
  have wf := reachable.wellFormed
  constructor
  · intro s mem evaluated
    obtain ⟨r, listed, text⟩ := exists_resource_of_isEvaluated built mem evaluated
    obtain ⟨source, -, kind, -, given, makes⟩ := wf.exists_makes built listed
    obtain ⟨name, references, isMadeOf, -⟩ := makes.exists_isMadeOf
    refine ⟨⟨r, listed, text⟩, ?_⟩
    rcases (isMadeOf.evaluated s evaluated).1 text with place | ⟨name, -, rfl⟩ | ⟨_, -, rfl⟩
    · exact .inl place
    · exact .inr (.inl ⟨name, readParameter?_eq_some_iff.2 rfl⟩)
    · exact .inr (.inr (isCallOf_resourceReference _ _))
  · intro r listed s text call
    obtain ⟨source, mem, kind, -, given, makes⟩ := wf.exists_makes built listed
    exact ⟨source, mem, makes.element_eq, wf.resolves built makes text call⟩
  · intro machine mem kind
    obtain ⟨given, r, listed, makes⟩ :=
      wf.exists_resource built (node_mem_elements mem) kind (by decide)
    have rule := (wf.exportable_of_build built).nodes machine mem .virtualMachine kind
    refine ⟨r, listed, makes.element_eq, t.linkedOfKind machine.id .networkInterface, ?_,
      fun element => wf.mem_linkedOfKind_iff, wf.pairwise_linkedOfKind, ?_⟩
    · rw [ne_eq, wf.linkedOfKind_eq_nil_iff, not_not]
      exact rule.interface
    · cases makes with
      | virtualMachine _ resource => exact wf.listsInterfaces built resource
  · intro interface mem kind
    obtain ⟨given, r, listed, makes⟩ :=
      wf.exists_resource built (node_mem_elements mem) kind (by decide)
    refine ⟨r, listed, makes.element_eq, ?_⟩
    cases makes with
    | networkInterface resource => exact wf.hasConfiguration built resource
  · intro app mem kind
    obtain ⟨given, r, listed, makes⟩ :=
      wf.exists_resource built (node_mem_elements mem) kind (by decide)
    refine ⟨r, listed, makes.element_eq, ?_⟩
    cases makes with
    | webApp resource =>
        obtain ⟨plan, hPlan, -, dependsOn, farm⟩ := WebApp.resource_spec resource
        have linked := wf.linkedKind_of_plan hPlan
        exact ⟨plan, _, linked, dependsOn, farm,
          wf.refersTo_of_linkedKind built linked (by decide) (by decide)⟩

/-- So it is for a drawing with an element of every kind. -/
theorem exists_wired_everyKind :
    ∃ b, (run ∅ everyKind).build = .ok (some b) ∧ b.Wired (run ∅ everyKind) := by
  obtain ⟨b, built⟩ := exists_build_everyKind
  exact ⟨b, built, wired_of_build ⟨everyKind, rfl⟩ built⟩

end Topology

end CloudCanvas
