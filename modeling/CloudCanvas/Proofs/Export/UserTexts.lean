import CloudCanvas.Proofs.Export.References

/-!
# What a user writes is read back and never evaluated

A string of a template is an expression if it stands in square brackets, and a text with a
doubled opening bracket stands for itself without one.  Whatever a user has put into a drawing
is written so that it is understood as that text again, and the only expressions of a template
are those that the export itself writes.

## Main definitions

* `readText?`: how a string of a template is understood.
* `Json.Carries`: texts that are found in a tree.
* `ResourceKind.resourceTexts`, `Subnet.texts`, `ResourceKind.parameterTexts`: which texts of
  an element go where.
* `Build.KeepsTexts`: all of them are read back, and nothing else is evaluated.

The main statement is `Topology.keepsTexts_of_build`.
-/

namespace CloudCanvas

/-! ## Reading -/

/-- How a string of a template is understood: as a text, unless it is evaluated. -/
def readText? (s : String) : Option String :=
  if isEvaluated s then none else some (plainText s)

@[simp] theorem readText?_literal (s : String) : readText? (literal s) = some s := by
  simp [readText?]

/-- Paths in a tree lead to strings that are understood as texts. -/
def Json.Carries (json : Json) (texts : List (List String × String)) : Prop :=
  ∀ carried ∈ texts, (json.textAt? carried.1).bind readText? = some carried.2

/-- The default of a parameter is understood as a text, or there is none. -/
def ParameterDefinition.HasDefault (d : ParameterDefinition) (text : Option String) : Prop :=
  (d.json.at? ["defaultValue"]).map (fun json => json.string?.bind readText?) = text.map some

/-- An expression that refers to a resource was written for its type and its names. -/
theorem eq_of_readReference? {s type : String} {names : List String} (given : names ≠ [])
    (h : readReference? s = some (type, names)) : s = resourceReference type names := by
  rw [readReference?] at h
  split at h
  · rename_i read
    cases h
    rw [resourceReference_eq type given]
    exact (readCall?_eq_some_iff.1 read).2
  · cases h

theorem Topology.Resolves.exists_reference {t : Topology} {template : Template}
    {source : Element} {s : String} (h : t.Resolves template source s) :
    ∃ reference : Reference, reference.2 ≠ [] ∧ s = reference.text := by
  have resource : ∀ {target}, template.RefersTo s target →
      ∃ reference : Reference, reference.2 ≠ [] ∧ s = reference.text := by
    rintro target ⟨r, -, -, kind, -, -, read⟩
    exact ⟨(kind, [plainText r.name]), by simp, eq_of_readReference? (by simp) read⟩
  cases h with
  | linked _ refers => exact resource refers
  | network _ refers => exact resource refers
  | subnet _ refers =>
      obtain ⟨r, -, -, -, entry, -, -, name, -, -, read⟩ := refers
      exact ⟨(.subnet, [plainText r.name, plainText name]), by simp,
        eq_of_readReference? (by simp) read⟩

/-! ## The texts of an element -/

/-- The text of a property, or a default if it has none. -/
def Element.textOr (element : Element) (property default : String) : String :=
  (element.text? property).getD default

theorem Element.eq_literal_of_textProperty {element : Element} {property default s : String}
    (h : element.textProperty property default = .ok s) :
    s = literal (element.textOr property default) := by
  rcases textProperty_eq_ok_iff.1 h with ⟨missing, rfl⟩ | ⟨given, found, rfl⟩
  · simp [textOr, text?, missing]
  · simp [textOr, text?, found, Value.string?]

/-- The name of the resource of an element.  An account has its letters in lower case. -/
def ResourceKind.resourceName (kind : ResourceKind) (element : Element) : String :=
  if kind = .storageAccount then String.ofList (element.displayName.toList.map Char.toLower)
  else element.displayName

/-- **The texts of an element in its resource**, each with the path that leads to it. -/
def ResourceKind.resourceTexts (kind : ResourceKind) (element : Element) :
    List (List String × String) :=
  (["name"], kind.resourceName element) ::
    match kind with
    | .publicIp => [(["sku", "name"], element.textOr "sku" "Basic")]
    | .virtualMachine => [
      (["properties", "osProfile", "computerName"], element.displayName),
      (["properties", "storageProfile", "imageReference", "publisher"],
        element.textOr "imagePublisher" "Canonical"),
      (["properties", "storageProfile", "imageReference", "offer"],
        element.textOr "imageOffer" "0001-com-ubuntu-server-jammy"),
      (["properties", "storageProfile", "imageReference", "sku"],
        element.textOr "imageSku" "22_04-lts-gen2")]
    | .virtualNetwork | .subnet | .networkInterface | .storageAccount | .appServicePlan
    | .webApp => []

/-- **The texts of a subnet in the list of its network**: its name, and its range if it has one
of its own. -/
def Subnet.texts (subnet : Group) : List (List String × String) :=
  (["name"], (Element.group subnet).displayName) ::
    ((Element.group subnet).text? "addressPrefix").toList.map
      (fun range => (["properties", "addressPrefix"], range))

/-- **The parameters of an element**, each with the text of the element that is its default if
it has one. -/
def ResourceKind.parameterTexts (kind : ResourceKind) (element : Element) :
    List (String × Option String) :=
  match kind with
  | .virtualNetwork =>
    [(parameterName element.id "addressPrefix",
      some (element.textOr "addressPrefix" "10.0.0.0/16"))]
  | .publicIp =>
    [(parameterName element.id "allocation", some (element.textOr "allocation" "Dynamic"))]
  | .virtualMachine => [
    (parameterName element.id "vmSize", some (element.textOr "vmSize" "Standard_B2s")),
    ("adminUsername", some (element.textOr "adminUsername" "azureuser")),
    ("adminPassword", none)]
  | .storageAccount =>
    [(parameterName element.id "sku", some (element.textOr "sku" "Standard_LRS"))]
  | .appServicePlan => [(parameterName element.id "sku", some (element.textOr "sku" "F1"))]
  | .subnet | .networkInterface | .webApp => []

/-- An element is a machine, and no machine was added to the drawing behind it. -/
def Topology.IsLastMachine (t : Topology) (element : Element) : Prop :=
  ∃ before machine after, t.nodes = before ++ machine :: after ∧ element = .node machine ∧
    machine.kind = ResourceKind.virtualMachine.tag ∧
      ∀ later ∈ after, later.kind ≠ ResourceKind.virtualMachine.tag

/-- **What a user writes is read back and never evaluated.**  Each string that is evaluated is
the place of deployment, a reference to a parameter of the template or a reference to a
resource.  The resource of each element, the entry of each subnet and the parameters carry the
texts of the element.  A default is always the text of some element, and it is the one of the
element that asks for the parameter, or, for the login, of the last machine. -/
structure Build.KeepsTexts (b : Build) (t : Topology) : Prop where
  evaluated : ∀ s ∈ b.template.json.texts, isEvaluated s = true → s = locationExpression ∨
    (∃ name ∈ b.template.parameters.keys, s = parameterReference name) ∨
      ∃ reference : Reference, reference.2 ≠ [] ∧ s = reference.text
  resources : ∀ r ∈ b.template.resources, ∃ element ∈ t.elements, ∃ kind : ResourceKind,
    element.kind = kind.tag ∧ r.element = element.id ∧
      r.json.Carries (kind.resourceTexts element)
  subnets : ∀ r ∈ b.template.resources, List.Forall₂
    (fun subnet entry => entry.Carries (Subnet.texts subnet))
    (t.subnetChildren r.element) r.subnets
  parameters : ∀ name definition, b.template.parameters.get? name = some definition →
    ∃ element ∈ t.elements, ∃ kind : ResourceKind, element.kind = kind.tag ∧
      ∃ text, (name, text) ∈ kind.parameterTexts element ∧ definition.HasDefault text
  defaults : ∀ element ∈ t.elements, ∀ kind : ResourceKind, element.kind = kind.tag →
    ∀ name text, (name, text) ∈ kind.parameterTexts element →
      (name ∈ loginParameters → t.IsLastMachine element) →
        ∃ definition, b.template.parameters.get? name = some definition ∧
          definition.HasDefault text

/-! ## Resources -/

namespace Json

variable {json : Json} {path : List String} {texts : List (List String × String)}

theorem carries_cons {text : String} : json.Carries ((path, text) :: texts) ↔
    (json.textAt? path).bind readText? = some text ∧ json.Carries texts :=
  List.forall_mem_cons

theorem carries_nil : json.Carries [] :=
  fun _ mem => absurd mem List.not_mem_nil

/-- A literal is understood as the text that it was made from. -/
theorem readText?_of_textAt? {text : String} (h : json.textAt? path = some (literal text)) :
    (json.textAt? path).bind readText? = some text := by
  rw [h]
  exact readText?_literal text

theorem lookup_member? {name key : String} {value : Option Json} :
    (member? name value).lookup key = if key = name then value else none := by
  cases value with
  | none => simp [member?]
  | some json =>
      by_cases same : key = name
      · simp [member?, same]
      · simp [member?, List.lookup_cons, beq_false_of_ne same, same]

end Json

namespace Resource

variable {r : Resource}

@[simp] theorem field?_name : r.json.field? "name" = some (.string r.name) := by
  simp [json, Json.field?, List.lookup_cons]

@[simp] theorem field?_sku : r.json.field? "sku" = r.sku.map (·.json) := by
  cases sku : r.sku <;>
    simp [json, Json.field?, List.lookup_append, List.lookup_cons, Json.lookup_member?, sku]

@[simp] theorem field?_properties (given : r.properties.isNull = false) :
    r.json.field? "properties" = some r.properties.json := by
  simp [json, Json.field?, List.lookup_append, List.lookup_cons, Json.lookup_member?, given]

end Resource

namespace Topology

variable {t : Topology} {element : Element} {kind : ResourceKind}
  {given : List (String × ParameterDefinition)} {made : Resource}

/-- The name of a resource is a literal. -/
theorem Makes.name_eq (h : t.Makes element kind given made) :
    made.name = literal (kind.resourceName element) := by
  by_cases account : kind = .storageAccount
  · subst account
    cases h with
    | storageAccount _ resource =>
        obtain ⟨name, valid, isMadeOf⟩ := StorageAccount.isMadeOf resource
        rw [StorageAccount.name] at valid
        split at valid
        · cases valid
          exact isMadeOf.name_eq
        · cases valid
  · obtain ⟨name, references, isMadeOf, same⟩ := h.exists_isMadeOf
    rw [isMadeOf.name_eq, same account, ResourceKind.resourceName, if_neg account]

/-- **The resource of an element carries its texts.** -/
theorem Makes.carries (h : t.Makes element kind given made) :
    made.json.Carries (kind.resourceTexts element) := by
  have name : made.json.textAt? ["name"] = some (literal (kind.resourceName element)) := by
    simp [Json.textAt?, h.name_eq]
  refine Json.carries_cons.2 ⟨Json.readText?_of_textAt? name, ?_⟩
  cases h with
  | virtualNetwork => exact Json.carries_nil
  | networkInterface => exact Json.carries_nil
  | publicIp _ resource =>
      obtain ⟨sku, hSku, resource⟩ := bind_eq_ok_iff.1 resource
      obtain rfl := Element.eq_literal_of_textProperty hSku
      cases resource
      refine Json.carries_cons.2 ⟨Json.readText?_of_textAt? ?_, Json.carries_nil⟩
      simp (disch := simp) [Json.textAt?, Value.field?_ofMembers]
  | virtualMachine _ resource =>
      rw [VirtualMachine.resource] at resource
      split at resource
      · cases resource
      simp only [bind_eq_ok_iff] at resource
      obtain ⟨publisher, hPublisher, offer, hOffer, sku, hSku, resource⟩ := resource
      obtain rfl := Element.eq_literal_of_textProperty hPublisher
      obtain rfl := Element.eq_literal_of_textProperty hOffer
      obtain rfl := Element.eq_literal_of_textProperty hSku
      cases resource
      have given : ∀ members, (Value.ofMembers members).isNull = false := fun _ => rfl
      simp (disch := simp [given]) [Json.carries_cons, Json.carries_nil, Json.textAt?,
        Value.field?_ofMembers, List.lookup_cons]
  | storageAccount => exact Json.carries_nil
  | appServicePlan => exact Json.carries_nil
  | webApp => exact Json.carries_nil

end Topology

/-! ## Subnets -/

namespace Subnet

variable {subnet : Group} {space : String} {ordinal : ℕ}

/-- A range of its own is written for a subnet as a literal. -/
theorem eq_literal_of_addressPrefix {range text : String}
    (h : addressPrefix subnet space ordinal = .ok range)
    (own : (Element.group subnet).text? "addressPrefix" = some text) : range = literal text := by
  have there : subnet.properties.contains "addressPrefix" = true := by
    obtain ⟨value, found, -⟩ := Option.bind_eq_some_iff.1 own
    rw [Dict.contains]
    exact Option.isSome_iff_exists.2 ⟨value, found⟩
  rw [addressPrefix, if_pos there] at h
  rw [Element.eq_literal_of_textProperty h, Element.textOr, own, Option.getD_some]

/-- **The entry of a subnet carries its texts.** -/
theorem carries_entry {entry : Value} (h : Subnet.entry subnet space ordinal = .ok entry) :
    entry.json.Carries (texts subnet) := by
  rw [Subnet.entry, bind_eq_ok_iff] at h
  obtain ⟨range, hRange, h⟩ := h
  cases h
  rw [texts, Json.carries_cons]
  refine ⟨by simp (disch := simp) [Json.textAt?, Value.field?_ofMembers], ?_⟩
  cases own : (Element.group subnet).text? "addressPrefix" with
  | none => exact Json.carries_nil
  | some text =>
      obtain rfl := eq_literal_of_addressPrefix hRange own
      refine Json.carries_cons.2 ⟨Json.readText?_of_textAt? ?_, Json.carries_nil⟩
      simp (disch := simp) [Json.textAt?, Value.field?_ofMembers, List.lookup_cons]

end Subnet

/-! ## Parameters -/

namespace ParameterDefinition

variable {d : ParameterDefinition}

theorem field?_defaultValue : d.json.field? "defaultValue" = d.defaultValue.map (·.json) := by
  cases default : d.defaultValue <;>
    simp [json, Json.field?, List.lookup_append, List.lookup_cons, Json.lookup_member?, default]

/-- A default that is the literal of a text is understood as this text. -/
theorem hasDefault_of_eq {text : Option String}
    (h : d.defaultValue = text.map (fun text => .string (literal text))) : d.HasDefault text := by
  cases text <;> simp [HasDefault, field?_defaultValue, h]

end ParameterDefinition

namespace Topology

variable {t : Topology} {element : Element} {kind : ResourceKind}
  {given : List (String × ParameterDefinition)} {made : Resource}

/-- **The parameters of an element have its texts as their defaults**, written as literals. -/
theorem Makes.map_defaultValue (h : t.Makes element kind given made) :
    given.map (fun entry => (entry.1, entry.2.defaultValue)) =
      (kind.parameterTexts element).map (fun entry =>
        (entry.1, entry.2.map (fun text => .string (literal text)))) := by
  cases h with
  | virtualNetwork parameters =>
      obtain ⟨space, hSpace, parameters⟩ := bind_eq_ok_iff.1 parameters
      obtain rfl := Element.eq_literal_of_textProperty hSpace
      cases parameters
      rfl
  | networkInterface => rfl
  | publicIp parameters =>
      obtain ⟨allocation, hAllocation, parameters⟩ := bind_eq_ok_iff.1 parameters
      obtain rfl := Element.eq_literal_of_textProperty hAllocation
      split at parameters <;> cases parameters
      rfl
  | virtualMachine parameters =>
      obtain ⟨size, hSize, parameters⟩ := bind_eq_ok_iff.1 parameters
      obtain ⟨username, hUsername, parameters⟩ := bind_eq_ok_iff.1 parameters
      obtain rfl := Element.eq_literal_of_textProperty hSize
      obtain rfl := Element.eq_literal_of_textProperty hUsername
      cases parameters
      rfl
  | storageAccount parameters =>
      obtain ⟨sku, hSku, parameters⟩ := bind_eq_ok_iff.1 parameters
      obtain rfl := Element.eq_literal_of_textProperty hSku
      split at parameters <;> cases parameters
      rfl
  | appServicePlan parameters =>
      obtain ⟨sku, hSku, parameters⟩ := bind_eq_ok_iff.1 parameters
      obtain rfl := Element.eq_literal_of_textProperty hSku
      cases parameters
      rfl
  | webApp => rfl

/-- Each parameter that an element asks for has a text of the element. -/
theorem Makes.exists_parameterText (h : t.Makes element kind given made) {name : String}
    {definition : ParameterDefinition} (mem : (name, definition) ∈ given) :
    ∃ text, (name, text) ∈ kind.parameterTexts element ∧ definition.HasDefault text := by
  have listed := List.mem_map_of_mem
    (f := fun entry : String × ParameterDefinition => (entry.1, entry.2.defaultValue)) mem
  rw [h.map_defaultValue] at listed
  obtain ⟨⟨_, text⟩, mem', same⟩ := List.mem_map.1 listed
  obtain ⟨rfl, eq⟩ := Prod.mk.inj same
  exact ⟨text, mem', ParameterDefinition.hasDefault_of_eq eq.symm⟩

/-- Each text that is to be a default is that of a parameter that the element asks for. -/
theorem Makes.exists_definition (h : t.Makes element kind given made) {name : String}
    {text : Option String} (mem : (name, text) ∈ kind.parameterTexts element) :
    ∃ definition, (name, definition) ∈ given ∧ definition.HasDefault text := by
  have listed := List.mem_map_of_mem (f := fun entry : String × Option String =>
    (entry.1, entry.2.map (fun text => Value.string (literal text)))) mem
  rw [← h.map_defaultValue] at listed
  obtain ⟨⟨_, definition⟩, mem', same⟩ := List.mem_map.1 listed
  obtain ⟨rfl, eq⟩ := Prod.mk.inj same
  exact ⟨definition, mem', ParameterDefinition.hasDefault_of_eq eq⟩

end Topology

namespace Build.AssembledFrom

variable {t : Topology} {b : Build} {contributions : List Contribution}
  (h : b.AssembledFrom t t.visitOrder contributions)
include h

/-- Behind the contribution of the last machine there is no other machine's. -/
theorem exists_split_of_isLastMachine {element : Element} (last : t.IsLastMachine element) :
    ∃ before c after, contributions = before ++ c :: after ∧ c.element = element ∧
      ∀ other ∈ after, other.kind ≠ .virtualMachine := by
  -- nodes are visited behind all groups, in the order in which they were added
  obtain ⟨first, machine, rest, nodes, rfl, kind, none⟩ := last
  have exported : t.fate (.node machine) = .exported :=
    Topology.fate_eq_exported kind (by decide)
  have elements := h.elements_eq
  rw [Topology.visitOrder, nodes, List.map_append, List.map_cons, ← List.append_assoc,
    List.filter_append, List.filter_cons_of_pos (by simpa using exported)] at elements
  obtain ⟨before, others, rfl, -, others'⟩ := List.map_eq_append_iff.1 elements
  obtain ⟨c, after, rfl, same, after'⟩ := List.map_eq_cons_iff.1 others'
  refine ⟨before, c, after, rfl, same, fun other mem machine' => ?_⟩
  have listed : other.element ∈ after.map (·.element) := List.mem_map_of_mem mem
  rw [after', List.mem_filter] at listed
  obtain ⟨node, later, eq⟩ := List.mem_map.1 listed.1
  have tag := (h.made other (List.mem_append_right _ (.tail _ mem))).1
  rw [machine', ← eq] at tag
  exact none node later tag

variable (wf : t.WellFormed) (exportable : t.Exportable)
include wf exportable

/-- **A parameter of a template is what its element gave**, or, for the login, the last
machine. -/
theorem get?_eq_some {c : Contribution} (mem : c ∈ contributions) {name : String}
    {definition : ParameterDefinition} (given : (name, definition) ∈ c.parameters)
    (last : name ∈ loginParameters → t.IsLastMachine c.element) :
    b.template.parameters.get? name = some definition := by
  by_cases login : name ∈ loginParameters
  · obtain ⟨before, c', after, split, same, others⟩ := h.exists_split_of_isLastMachine (last login)
    have mem' : c' ∈ contributions := split ▸ List.mem_append_right _ List.mem_cons_self
    obtain rfl := h.eq_of_element_eq wf mem' mem same
    refine h.get?_of_last split given fun other later asked => ?_
    have mem' : other ∈ contributions := split ▸ List.mem_append_right _ (.tail _ later)
    rw [(h.made other mem').2.map_fst, Contribution.login, if_neg (others other later),
      List.append_nil, Option.mem_toList] at asked
    exact not_isParameterOf_login login (Contribution.isParameterOf_of_own? asked)
  · have asked : name ∈ c.parameters.map Prod.fst := List.mem_map_of_mem given
    rw [(h.made c mem).2.map_fst, List.mem_append, Option.mem_toList] at asked
    have own := asked.resolve_right fun shared => login (Contribution.mem_of_mem_login shared)
    obtain ⟨definition', found, given'⟩ := h.get?_own wf exportable mem own
    rw [← lookup_eq_some_iff_mem (h.nodup_map_fst mem)] at given given'
    rw [found, ← given', given]

end Build.AssembledFrom

namespace Topology

variable {t : Topology} {b : Build}

/-- **Nothing that a user writes is evaluated, and all of it is read back.** -/
theorem keepsTexts_of_build (reachable : t.Reachable) (built : t.build = .ok (some b)) :
    b.KeepsTexts t := by
  have wf := reachable.wellFormed
  have exportable := wf.exportable_of_build built
  obtain ⟨contributions, h⟩ := exists_contributions built
  constructor
  · intro s mem evaluated
    obtain ⟨r, listed, text⟩ := exists_resource_of_isEvaluated built mem evaluated
    rw [h.resources_eq] at listed
    obtain ⟨c, made, rfl⟩ := List.mem_map.1 listed
    have makes := (h.made c made).2
    obtain ⟨name, references, isMadeOf, -⟩ := makes.exists_isMadeOf
    rcases (isMadeOf.evaluated s evaluated).1 text with place | ⟨name, asked, rfl⟩ | ⟨_, -, rfl⟩
    · exact .inl place
    · exact .inr (.inl ⟨name, h.mem_keys_iff.2 ⟨c, made, asked⟩, rfl⟩)
    · have call := isCallOf_resourceReference
      exact .inr (.inr (wf.resolves built makes text (call _ _)).exists_reference)
  · intro r listed
    obtain ⟨element, mem, kind, tag, given, makes⟩ := wf.exists_makes built listed
    exact ⟨element, mem, kind, tag, makes.element_eq, makes.carries⟩
  · intro r listed
    obtain ⟨element, mem, kind, tag, given, makes⟩ := wf.exists_makes built listed
    rw [makes.element_eq]
    exact wf.forall₂_subnets_of_entry (fun _ _ _ _ => Subnet.carries_entry) mem makes
  · intro name definition found
    obtain ⟨c, mem, given⟩ := h.exists_mem_of_get? found
    obtain ⟨tag, makes⟩ := h.made c mem
    have known := ((h.exists_mem_iff wf).1 ⟨c, mem, rfl⟩).1
    exact ⟨c.element, known, c.kind, tag, makes.exists_parameterText given⟩
  · intro element known kind tag name text listed last
    have ne : kind ≠ .subnet := by
      rintro rfl
      cases listed
    obtain ⟨c, mem, rfl, rfl⟩ := wf.exists_contribution h known tag ne
    have makes := (h.made c mem).2
    obtain ⟨definition, given, default⟩ := makes.exists_definition listed
    exact ⟨definition, h.get?_eq_some wf exportable mem given last, default⟩

/-- A drawing in which whatever can be said by the user is said in brackets.  The login is the
one of the machine that was added last. -/
theorem exists_keepsTexts_bracketed :
    let worker : Node := ⟨"worker", "virtual-machine", .ofList [("name", "[deployment().name]"),
      ("vmSize", "[[]"), ("adminUsername", "[last]"), ("imagePublisher", "[parameters('p')]"),
      ("imageOffer", "[[offer]"), ("imageSku", "[sku")], none, none⟩
    let edits : List Edit := [
      .addGroup ⟨⟨"[hub]", "virtual-network", .ofList [("addressPrefix", "[[10.0.0.0/8]")], none,
        none⟩, [], []⟩,
      .addGroup ⟨⟨"front", "subnet", .ofList [("name", "['front']"),
        ("addressPrefix", "[resourceGroup().location]")], some "[hub]", none⟩, [], []⟩,
      .addNode ⟨"card", "network-interface", ∅, some "front", none⟩,
      .addNode ⟨"address", "public-ip", .ofList [("sku", "[]")], none, none⟩,
      .addNode ⟨"web", "virtual-machine", .ofList [("adminUsername", "[first]")], none, none⟩,
      .addNode worker,
      .addNode ⟨"plan", "app-service-plan", .ofList [("sku", "[sku]")], none, none⟩,
      .addNode ⟨"files", "storage-account", .ofList [("name", "Files01")], none, none⟩,
      .addLink ⟨"l1", "web", "card", ∅⟩,
      .addLink ⟨"l2", "card", "worker", ∅⟩]
    ∃ b, (run ∅ edits).build = .ok (some b) ∧ b.KeepsTexts (run ∅ edits) ∧
      ∃ definition, b.template.parameters.get? "adminUsername" = some definition ∧
        definition.HasDefault (some "[last]") := by
  intro worker edits
  obtain ⟨b, built⟩ : ∃ b, (run ∅ edits).build = .ok (some b) :=
    exists_build_of_visits ⟨edits, rfl⟩ (by decide +kernel) (by decide +kernel)
  have keeps : b.KeepsTexts (run ∅ edits) := keepsTexts_of_build ⟨edits, rfl⟩ built
  have nodes : (run ∅ edits).nodes = (run ∅ edits).nodes.take 3 ++ worker ::
      (run ∅ edits).nodes.drop 4 := by decide +kernel
  have last : (run ∅ edits).IsLastMachine (.node worker) :=
    ⟨_, worker, _, nodes, rfl, rfl, by decide +kernel⟩
  have known : Element.node worker ∈ (run ∅ edits).elements :=
    node_mem_elements (nodes ▸ List.mem_append_right _ List.mem_cons_self)
  exact ⟨b, built, keeps, keeps.defaults _ known .virtualMachine rfl "adminUsername" _
    (by decide +kernel) fun _ => last⟩

end Topology

end CloudCanvas
