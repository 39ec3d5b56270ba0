import CloudCanvas.Proofs.Export.Build
import CloudCanvas.Proofs.Export.Resources
import CloudCanvas.Proofs.Template.Parameters
import CloudCanvas.Proofs.Topology.Outline

/-!
# What a template is put together from

A visit of an element does one of three things: it leaves the element to the group around
it, passes it over, or enters what the kind of the element makes of it.  So a template is
what the exported elements contribute, one behind the other, and the report says of each
visited element which of the three became of it.

## Main definitions

* `Fate`, `Topology.fate`: what becomes of an element.
* `Contribution`: what an exported element gives to a template.
* `Topology.Makes`: what each kind makes of an element.
* `Build.AssembledFrom`: a template and a report from contributions.

The main statements are `Draft.visit_cases` and `Topology.exists_contributions`.
-/

namespace CloudCanvas

/-- What becomes of an element. -/
inductive Fate where
  /-- It contributes to the template. -/
  | exported
  /-- The group around it exports it. -/
  | delegated
  /-- It is an annotation. -/
  | ignored
deriving DecidableEq

/-- What becomes of an element that no group around it exports. -/
def Element.ownFate (element : Element) : Fate :=
  if (ResourceKind.ofTag? element.kind).isSome then .exported else .ignored

/-- What becomes of an element of a drawing. -/
def Topology.fate (t : Topology) : Element → Fate
  | .group group => if t.isDelegated group then .delegated else (Element.group group).ownFate
  | .node node => (Element.node node).ownFate

/-- What an exported element gives to a template. -/
structure Contribution where
  element : Element
  kind : ResourceKind
  parameters : List (String × ParameterDefinition)
  resource : Resource

namespace Topology

/-- **What each kind makes of an element**: its parameters and its resource.  A subnet makes
nothing by itself, and neither does a kind of group on a node or the other way round. -/
inductive Makes (t : Topology) :
    Element → ResourceKind → List (String × ParameterDefinition) → Resource → Prop
  | virtualNetwork {network : Group} {given : List (String × ParameterDefinition)}
      {made : Resource} (parameters : VirtualNetwork.parameters network = .ok given)
      (resource : VirtualNetwork.resource t network = .ok made) :
      Makes t (.group network) .virtualNetwork given made
  | networkInterface {interface : Node} {made : Resource}
      (resource : NetworkInterface.resource t interface = .ok made) :
      Makes t (.node interface) .networkInterface [] made
  | publicIp {ip : Node} {given : List (String × ParameterDefinition)} {made : Resource}
      (parameters : PublicIp.parameters ip = .ok given)
      (resource : PublicIp.resource ip = .ok made) :
      Makes t (.node ip) .publicIp given made
  | virtualMachine {machine : Node} {given : List (String × ParameterDefinition)}
      {made : Resource} (parameters : VirtualMachine.parameters machine = .ok given)
      (resource : VirtualMachine.resource t machine = .ok made) :
      Makes t (.node machine) .virtualMachine given made
  | storageAccount {account : Node} {given : List (String × ParameterDefinition)}
      {made : Resource} (parameters : StorageAccount.parameters account = .ok given)
      (resource : StorageAccount.resource account = .ok made) :
      Makes t (.node account) .storageAccount given made
  | appServicePlan {plan : Node} {given : List (String × ParameterDefinition)}
      (parameters : AppServicePlan.parameters plan = .ok given) :
      Makes t (.node plan) .appServicePlan given (AppServicePlan.resource plan)
  | webApp {app : Node} {made : Resource} (resource : WebApp.resource t app = .ok made) :
      Makes t (.node app) .webApp [] made

variable {t : Topology} {element : Element} {kind : ResourceKind}
  {given : List (String × ParameterDefinition)} {made : Resource}

theorem makes_iff : t.Makes element kind given made ↔
    (Capability.ofKind kind element).parameters = .ok given ∧
      (Capability.ofKind kind element).resource t = .ok made := by
  constructor
  · intro h
    cases h with
    | virtualNetwork parameters resource => exact ⟨parameters, resource⟩
    | networkInterface resource => exact ⟨rfl, resource⟩
    | publicIp parameters resource => exact ⟨parameters, resource⟩
    | virtualMachine parameters resource => exact ⟨parameters, resource⟩
    | storageAccount parameters resource => exact ⟨parameters, resource⟩
    | appServicePlan parameters => exact ⟨parameters, rfl⟩
    | webApp resource => exact ⟨rfl, resource⟩
  · intro ⟨parameters, resource⟩
    cases kind <;> cases element
    case virtualNetwork.group => exact .virtualNetwork parameters resource
    case networkInterface.node =>
      cases parameters
      exact .networkInterface resource
    case publicIp.node => exact .publicIp parameters resource
    case virtualMachine.node => exact .virtualMachine parameters resource
    case storageAccount.node => exact .storageAccount parameters resource
    case appServicePlan.node =>
      cases resource
      exact .appServicePlan parameters
    case webApp.node =>
      cases parameters
      exact .webApp resource
    all_goals cases resource

/-- **The resource of an element** has its type, its id and, except for accounts, its name,
and refers to exactly the parameters that come with it. -/
theorem Makes.exists_isMadeOf (h : t.Makes element kind given made) : ∃ name references,
    made.IsMadeOf kind name element.id (given.map Prod.fst) references ∧
      (kind ≠ .storageAccount → name = element.displayName) := by
  cases h with
  | virtualNetwork parameters resource =>
      rw [VirtualNetwork.map_fst_parameters parameters]
      exact ⟨_, _, (VirtualNetwork.resource_spec resource).1, fun _ => rfl⟩
  | networkInterface resource =>
      obtain ⟨_, _, _, -, -, -, isMadeOf, -⟩ := NetworkInterface.resource_spec resource
      exact ⟨_, _, isMadeOf, fun _ => rfl⟩
  | publicIp parameters resource =>
      rw [PublicIp.map_fst_parameters parameters]
      exact ⟨_, _, PublicIp.isMadeOf resource, fun _ => rfl⟩
  | virtualMachine parameters resource =>
      rw [VirtualMachine.map_fst_parameters parameters]
      exact ⟨_, _, (VirtualMachine.resource_spec resource).1, fun _ => rfl⟩
  | storageAccount parameters resource =>
      rw [StorageAccount.map_fst_parameters parameters]
      obtain ⟨_, -, isMadeOf⟩ := StorageAccount.isMadeOf resource
      exact ⟨_, _, isMadeOf, fun other => absurd rfl other⟩
  | appServicePlan parameters =>
      rw [AppServicePlan.map_fst_parameters parameters]
      exact ⟨_, _, AppServicePlan.isMadeOf _, fun _ => rfl⟩
  | webApp resource =>
      obtain ⟨_, -, isMadeOf, -⟩ := WebApp.resource_spec resource
      exact ⟨_, _, isMadeOf, fun _ => rfl⟩

/-- A resource says which element it was made of. -/
theorem Makes.element_eq (h : t.Makes element kind given made) : made.element = element.id := by
  obtain ⟨_, _, isMadeOf, -⟩ := h.exists_isMadeOf
  exact isMadeOf.element_eq

end Topology

/-! ## One visit -/

namespace Draft

variable {t : Topology} {draft draft' : Draft} {element : Element}

/-- What a visit of an element does that the group around it does not export. -/
private theorem visitOwn_cases (h : draft.visitOwn t element = .ok draft') :
    (element.ownFate = .ignored ∧ draft' = { draft with
      report := { draft.report with ignored := draft.report.ignored ++ [element.id] } }) ∨
    (element.ownFate = .exported ∧ ∃ kind given made kept, element.kind = kind.tag ∧
      t.Makes element kind given made ∧ draft.reserve element.id given = .ok kept ∧
        draft' = kept.enter element.id given made) := by
  rw [visitOwn, Capability.of?] at h
  cases found : ResourceKind.ofTag? element.kind with
  | none =>
      rw [found] at h
      cases h
      exact .inl ⟨by simp [Element.ownFate, found], rfl⟩
  | some kind =>
      rw [found] at h
      obtain ⟨given, hGiven, kept, hKept, made, hMade, rfl⟩ := contribute_eq_ok_iff.1 h
      exact .inr ⟨by simp [Element.ownFate, found], kind, given, made, kept,
        ResourceKind.ofTag?_eq_some_iff.1 found, Topology.makes_iff.2 ⟨hGiven, hMade⟩, hKept, rfl⟩

/-- **What a visit does**: it leaves the element to the group around it, passes it over, or
reserves the scope of its parameters and enters what it contributes. -/
theorem visit_cases (h : draft.visit t element = .ok draft') :
    (t.fate element = .delegated ∧ draft' = { draft with
      report := { draft.report with delegated := draft.report.delegated ++ [element.id] } }) ∨
    (t.fate element = .ignored ∧ draft' = { draft with
      report := { draft.report with ignored := draft.report.ignored ++ [element.id] } }) ∨
    (t.fate element = .exported ∧ ∃ kind given made kept, element.kind = kind.tag ∧
      t.Makes element kind given made ∧ draft.reserve element.id given = .ok kept ∧
        draft' = kept.enter element.id given made) := by
  cases element with
  | node node => exact .inr (visitOwn_cases h)
  | group group =>
      rw [visit] at h
      rw [Topology.fate]
      by_cases delegated : t.isDelegated group = true
      · rw [if_pos delegated] at h
        cases h
        exact .inl ⟨if_pos delegated, rfl⟩
      · rw [if_neg delegated] at h
        rw [if_neg delegated]
        exact .inr (visitOwn_cases h)

/-- A scope is reserved without a change of the template or the report. -/
theorem eq_of_reserve {id : String} {given : List (String × ParameterDefinition)}
    (h : draft.reserve id given = .ok draft') :
    draft'.template = draft.template ∧ draft'.report = draft.report := by
  rcases reserve_eq_ok_iff.1 h with ⟨-, rfl⟩ | ⟨-, -, rfl⟩
  · exact ⟨rfl, rfl⟩
  · exact ⟨rfl, rfl⟩

/-- Whether the visits succeed does not depend on their order. -/
theorem foldlM_visit_perm {elements others : List Element} (perm : elements.Perm others) :
    (∃ draft', elements.foldlM (visit t) draft = .ok draft') ↔
      ∃ draft', others.foldlM (visit t) draft = .ok draft' := by
  have scopes := (perm.filter (·.HasParameters)).map (fun element => parameterScope element.id)
  simp only [foldlM_visit_iff, perm.mem_iff, scopes.nodup_iff]

end Draft

/-! ## All visits -/

/-- The ids of the visited elements of which one thing became. -/
def Topology.idsOf (t : Topology) (visited : List Element) (fate : Fate) : List String :=
  (visited.filter (t.fate · = fate)).map Element.id

/-- The parameters of contributions, entered one after another, and the names of which this
replaced a parameter. -/
def Contribution.entered (contributions : List Contribution) :
    Dict ParameterDefinition × List String :=
  (contributions.flatMap (·.parameters)).foldl Template.enterParameter (∅, [])

/-- **A template and a report from contributions**: the contributions are those of the
exported elements among the visited ones, in the order of the visits.  The template has their
resources and parameters, and the report has the visited elements by what became of them. -/
structure Build.AssembledFrom (t : Topology) (visited : List Element)
    (contributions : List Contribution) (b : Build) : Prop where
  elements_eq : contributions.map (·.element) = visited.filter (t.fate · = .exported)
  made : ∀ c ∈ contributions,
    c.element.kind = c.kind.tag ∧ t.Makes c.element c.kind c.parameters c.resource
  template_eq : b.template = { Template.empty with
    parameters := (Contribution.entered contributions).1
    resources := contributions.map (·.resource) }
  report_eq : b.report = {
    exported := t.idsOf visited .exported
    delegated := t.idsOf visited .delegated
    ignored := t.idsOf visited .ignored
    replaced := (Contribution.entered contributions).2 }

namespace Topology

variable {t : Topology} {fate : Fate}

theorem idsOf_cons (element : Element) (rest : List Element) :
    t.idsOf (element :: rest) fate =
      if t.fate element = fate then element.id :: t.idsOf rest fate else t.idsOf rest fate := by
  by_cases same : t.fate element = fate <;> simp [idsOf, same]

theorem idsOf_sublist (visited : List Element) :
    (t.idsOf visited fate).Sublist (visited.map Element.id) :=
  List.filter_sublist.map _

theorem map_id_elements_perm : (t.elements.map Element.id).Perm t.elementIds := by
  have ids : t.elements.map Element.id = t.groups.map (·.id) ++ t.nodes.map (·.id) := by
    simp [elements, Function.comp_def, Element.id]
  rw [ids]
  exact List.perm_append_comm

end Topology

namespace Build.AssembledFrom

variable {t : Topology} {visited : List Element} {contributions : List Contribution}
  {draft draft' : Draft} {element : Element}

theorem start : AssembledFrom t [] [] ⟨Draft.start.template, Draft.start.report⟩ where
  elements_eq := rfl
  made := by simp
  template_eq := rfl
  report_eq := rfl

theorem entered_append (c : Contribution) : Contribution.entered (contributions ++ [c]) =
    let before := Contribution.entered contributions
    let after := c.parameters.foldl Template.enterParameter (before.1, [])
    (after.1, before.2 ++ after.2) := by
  simp only [Contribution.entered, List.flatMap_append, List.flatMap_singleton, List.foldl_append]
  exact Template.foldl_enterParameter _

/-- One more visit. -/
theorem visit (h : AssembledFrom t visited contributions ⟨draft.template, draft.report⟩)
    (next : draft.visit t element = .ok draft') :
    ∃ contributions', AssembledFrom t (visited ++ [element]) contributions'
      ⟨draft'.template, draft'.report⟩ := by
  have report := h.report_eq
  have template := h.template_eq
  simp only at report template
  -- only a visit of an exported element changes the template and adds a contribution
  rcases Draft.visit_cases next with ⟨fate, rfl⟩ | ⟨fate, rfl⟩ |
    ⟨fate, kind, given, made, kept, kindEq, makes, hKept, rfl⟩
  · refine ⟨contributions, by simp [fate, h.elements_eq], h.made, template, ?_⟩
    simp [report, Topology.idsOf, fate]
  · refine ⟨contributions, by simp [fate, h.elements_eq], h.made, template, ?_⟩
    simp [report, Topology.idsOf, fate]
  · obtain ⟨sameTemplate, sameReport⟩ := Draft.eq_of_reserve hKept
    refine ⟨contributions ++ [⟨element, kind, given, made⟩], by simp [fate, h.elements_eq],
      fun c mem => ?_, ?_, ?_⟩
    · rcases List.mem_append.1 mem with mem | mem
      · exact h.made c mem
      · rw [List.mem_singleton.1 mem]
        exact ⟨kindEq, makes⟩
    · simp [Draft.enter, Template.addParameters, Template.addResources, sameTemplate, template,
        entered_append]
    · simp [Draft.enter, Template.addParameters, sameReport, sameTemplate, report, template,
        entered_append, Topology.idsOf, fate]

variable {b : Build}

theorem exported_eq (h : AssembledFrom t visited contributions b) :
    b.report.exported = t.idsOf visited .exported := by
  rw [h.report_eq]

theorem delegated_eq (h : AssembledFrom t visited contributions b) :
    b.report.delegated = t.idsOf visited .delegated := by
  rw [h.report_eq]

theorem ignored_eq (h : AssembledFrom t visited contributions b) :
    b.report.ignored = t.idsOf visited .ignored := by
  rw [h.report_eq]

theorem resources_eq (h : AssembledFrom t visited contributions b) :
    b.template.resources = contributions.map (·.resource) := by
  rw [h.template_eq]

/-- The resources were made of the exported elements, one of each. -/
theorem map_element_resources (h : AssembledFrom t visited contributions b) :
    b.template.resources.map (·.element) = b.report.exported := by
  have made : ∀ c ∈ contributions, c.resource.element = c.element.id :=
    fun c mem => (h.made c mem).2.element_eq
  rw [h.resources_eq, h.exported_eq, Topology.idsOf, ← h.elements_eq, List.map_map, List.map_map]
  exact List.map_congr_left made

end Build.AssembledFrom

namespace Topology

variable {t : Topology} {b : Build}

theorem build_eq_ok_some_iff : t.build = .ok (some b) ↔ t.isEmpty = false ∧
    ∃ draft, t.visitOrder.foldlM (Draft.visit t) Draft.start = .ok draft ∧
      b = ⟨draft.template, draft.report⟩ := by
  rw [build]
  cases t.isEmpty with
  | true => simp
  | false =>
      simp only [Bool.false_eq_true, if_false, bind_eq_ok_iff, true_and]
      exact exists_congr fun draft => and_congr_right fun _ => by simp [pure, Except.pure, eq_comm]

/-- Nothing is built of an empty drawing only. -/
theorem build_eq_ok_none_iff : t.build = .ok none ↔ t.isEmpty = true := by
  rw [build]
  cases t.isEmpty with
  | true => simp
  | false => simp [bind_eq_ok_iff, pure, Except.pure]

/-- What visits make is put together from what the visited elements contribute. -/
theorem exists_contributions_of_visits {visited : List Element} {draft : Draft}
    (visits : visited.foldlM (Draft.visit t) Draft.start = .ok draft) :
    ∃ contributions,
      Build.AssembledFrom t visited contributions ⟨draft.template, draft.report⟩ :=
  foldlM_collects
    (P := fun visited draft => ∃ contributions,
      Build.AssembledFrom t visited contributions ⟨draft.template, draft.report⟩)
    ⟨[], .start⟩ (fun _ _ _ _ ⟨_, holds⟩ next => holds.visit next) visits

/-- **A template that is built is put together from what the elements contribute.** -/
theorem exists_contributions (h : t.build = .ok (some b)) :
    ∃ contributions, b.AssembledFrom t t.visitOrder contributions := by
  obtain ⟨-, draft, visits, rfl⟩ := build_eq_ok_some_iff.1 h
  exact exists_contributions_of_visits visits

namespace WellFormed

variable (wf : t.WellFormed)
include wf

/-- A drawing of which a template is built follows the rules. -/
theorem exportable_of_build (h : t.build = .ok (some b)) : t.Exportable := by
  obtain ⟨-, draft, visits, -⟩ := build_eq_ok_some_iff.1 h
  exact wf.exists_visits_iff.1 ⟨draft, visits⟩

/-- A template is built if the elements can be visited in any order. -/
theorem exists_build_iff_visits : (∃ b, t.build = .ok (some b)) ↔ t.isEmpty = false ∧
    ∃ draft, t.elements.foldlM (Draft.visit t) Draft.start = .ok draft := by
  rw [← Draft.foldlM_visit_perm wf.visitOrder_perm]
  simp [build_eq_ok_some_iff]

end WellFormed

/-- A drawing can be seen to be exported by visiting its elements in any order. -/
theorem exists_build_of_visits (reachable : t.Reachable) (drawn : t.isEmpty = false)
    (visits : (t.elements.foldlM (Draft.visit t) Draft.start).isOk = true) :
    ∃ b, t.build = .ok (some b) :=
  reachable.wellFormed.exists_build_iff_visits.2 ⟨drawn, exists_eq_ok_of_isOk visits⟩

/-! ## Where the contributions come from -/

/-- An id is that of one element. -/
theorem WellFormed.element_ext (wf : t.WellFormed) {element other : Element}
    (mem : element ∈ t.elements) (mem' : other ∈ t.elements) (eq : element.id = other.id) :
    element = other :=
  Option.some.inj ((wf.element?_eq_some_iff.2 ⟨mem, eq⟩).symm.trans
    (wf.element?_eq_some_iff.2 ⟨mem', rfl⟩))

end Topology

namespace Build.AssembledFrom

variable {t : Topology} {b : Build} {contributions : List Contribution}
  (h : b.AssembledFrom t t.visitOrder contributions) (wf : t.WellFormed)
include h wf

/-- **The contributions are those of the exported elements.** -/
theorem map_element_perm : (contributions.map (·.element)).Perm
    (t.elements.filter (fun element => decide (element.id ∈ b.report.exported))) := by
  have exported : ∀ element ∈ t.elements,
      t.fate element = .exported ↔ element.id ∈ b.report.exported := by
    intro element mem
    rw [h.exported_eq, Topology.idsOf, List.mem_map]
    constructor
    · intro fate
      exact ⟨element, List.mem_filter.2 ⟨wf.visitOrder_perm.mem_iff.2 mem, by simpa using fate⟩,
        rfl⟩
    · intro ⟨other, listed, eq⟩
      obtain ⟨visited, fate⟩ := List.mem_filter.1 listed
      obtain rfl := wf.element_ext (wf.visitOrder_perm.mem_iff.1 visited) mem eq
      simpa using fate
  have same : t.elements.filter (t.fate · = .exported) =
      t.elements.filter (fun element => decide (element.id ∈ b.report.exported)) :=
    List.filter_congr fun element mem => by simp [exported element mem]
  rw [h.elements_eq, ← same]
  exact wf.visitOrder_perm.filter _

theorem exists_mem_iff {element : Element} : (∃ c ∈ contributions, c.element = element) ↔
    element ∈ t.elements ∧ element.id ∈ b.report.exported := by
  rw [← List.mem_map, (h.map_element_perm wf).mem_iff]
  simp

theorem nodup_map : (contributions.map (·.element)).Nodup :=
  (h.map_element_perm wf).nodup_iff.2 (wf.nodup_elements.filter _)

/-- An element contributes once. -/
theorem eq_of_element_eq {c other : Contribution} (mem : c ∈ contributions)
    (mem' : other ∈ contributions) (eq : c.element = other.element) : c = other :=
  List.inj_on_of_nodup_map (h.nodup_map wf) mem mem' eq

end Build.AssembledFrom

namespace Topology

variable {t : Topology} {b : Build}

theorem ownFate_ne_delegated (element : Element) : element.ownFate ≠ .delegated := by
  rw [Element.ownFate]
  split <;> simp

theorem fate_eq_delegated_iff {group : Group} :
    t.fate (.group group) = .delegated ↔ t.isDelegated group = true := by
  rw [fate]
  by_cases delegated : t.isDelegated group = true
  · simp [delegated]
  · simp [delegated, ownFate_ne_delegated]

/-- An element of a kind of the catalog is exported, unless it is a subnet. -/
theorem fate_eq_exported {element : Element} {kind : ResourceKind} (h : element.kind = kind.tag)
    (ne : kind ≠ .subnet) : t.fate element = .exported := by
  have known : element.ownFate = .exported := by
    simp [Element.ownFate, h, ResourceKind.ofTag?_tag]
  cases element with
  | node node => exact known
  | group group =>
      have own : t.isDelegated group ≠ true := fun delegated =>
        ne (ResourceKind.tag_injective (h.symm.trans (kind_of_isDelegated delegated)))
      rw [fate, if_neg own, known]

/-- An element of a kind of the catalog contributes by this kind, unless it is a subnet. -/
theorem WellFormed.exists_contribution (wf : t.WellFormed) {contributions : List Contribution}
    (assembled : b.AssembledFrom t t.visitOrder contributions) {element : Element}
    (mem : element ∈ t.elements) {kind : ResourceKind} (h : element.kind = kind.tag)
    (ne : kind ≠ .subnet) : ∃ c ∈ contributions, c.element = element ∧ c.kind = kind := by
  have exported : element ∈ t.visitOrder.filter (t.fate · = .exported) :=
    List.mem_filter.2 ⟨wf.visitOrder_perm.mem_iff.2 mem, by simpa using fate_eq_exported h ne⟩
  rw [← assembled.elements_eq] at exported
  obtain ⟨c, listed, rfl⟩ := List.mem_map.1 exported
  exact ⟨c, listed, rfl, ResourceKind.tag_injective ((assembled.made c listed).1.symm.trans h)⟩

namespace WellFormed

variable (wf : t.WellFormed) (built : t.build = .ok (some b))
include wf built

/-- **Every element of a kind of the catalog has a resource**, unless it is a subnet. -/
theorem exists_resource {element : Element} (mem : element ∈ t.elements) {kind : ResourceKind}
    (h : element.kind = kind.tag) (ne : kind ≠ .subnet) :
    ∃ given, ∃ r ∈ b.template.resources, t.Makes element kind given r := by
  obtain ⟨contributions, assembled⟩ := exists_contributions built
  obtain ⟨c, listed, rfl, rfl⟩ := wf.exists_contribution assembled mem h ne
  exact ⟨c.parameters, c.resource, assembled.resources_eq ▸ List.mem_map_of_mem listed,
    (assembled.made c listed).2⟩

/-- **Every resource was made of an element** by the kind of the element. -/
theorem exists_makes {r : Resource} (mem : r ∈ b.template.resources) :
    ∃ element ∈ t.elements, ∃ kind : ResourceKind, element.kind = kind.tag ∧
      ∃ given, t.Makes element kind given r := by
  obtain ⟨contributions, assembled⟩ := exists_contributions built
  rw [assembled.resources_eq] at mem
  obtain ⟨c, listed, rfl⟩ := List.mem_map.1 mem
  obtain ⟨same, makes⟩ := assembled.made c listed
  exact ⟨c.element, ((assembled.exists_mem_iff wf).1 ⟨c, listed, rfl⟩).1, c.kind, same,
    c.parameters, makes⟩

/-- No two resources were made of one element. -/
theorem nodup_map_element : (b.template.resources.map (·.element)).Nodup := by
  obtain ⟨contributions, assembled⟩ := exists_contributions built
  have nodup : t.elementIds.Nodup := (List.nodup_append.1 wf.ids_nodup).1
  have visited : (t.visitOrder.map Element.id).Perm t.elementIds :=
    (wf.visitOrder_perm.map Element.id).trans map_id_elements_perm
  rw [assembled.map_element_resources, assembled.exported_eq]
  exact (visited.nodup_iff.2 nodup).sublist (idsOf_sublist _)

end WellFormed

/-! ## A drawing with every kind -/

/-- A drawing with an element of every kind: a network with a subnet in which two machines
have their interfaces, a web app on its plan, an account and a frame.  The name of the network
has to be escaped both as a literal and inside an expression. -/
def everyKind : List Edit := [
  .addGroup ⟨⟨"hub", "virtual-network", .ofList [("name", .string "[hub's]")], none, none⟩, [], []⟩,
  .addGroup ⟨⟨"front", "subnet", ∅, some "hub", none⟩, [], []⟩,
  .addGroup ⟨⟨"frame", "note", ∅, none, none⟩, [], []⟩,
  .addNode ⟨"card", "network-interface", ∅, some "front", none⟩,
  .addNode ⟨"spare", "network-interface", ∅, some "front", none⟩,
  .addNode ⟨"address", "public-ip", ∅, none, none⟩,
  .addNode ⟨"web", "virtual-machine", ∅, none, none⟩,
  .addNode ⟨"worker", "virtual-machine", ∅, none, none⟩,
  .addNode ⟨"plan", "app-service-plan", ∅, none, none⟩,
  .addNode ⟨"site", "web-app", ∅, some "frame", none⟩,
  .addNode ⟨"files", "storage-account", ∅, none, none⟩,
  .addLink ⟨"l1", "web", "spare", ∅⟩,
  .addLink ⟨"l2", "card", "web", ∅⟩,
  .addLink ⟨"l3", "address", "card", ∅⟩,
  .addLink ⟨"l4", "worker", "card", ∅⟩,
  .addLink ⟨"l5", "site", "plan", ∅⟩]

theorem exists_build_everyKind : ∃ b, (run ∅ everyKind).build = .ok (some b) :=
  exists_build_of_visits ⟨everyKind, rfl⟩ (by decide +kernel) (by decide +kernel)

end Topology

end CloudCanvas
