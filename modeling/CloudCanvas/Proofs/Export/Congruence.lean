import CloudCanvas.Proofs.Export.Annotated

/-!
# Annotations are not exported

A visit does the same to the draft of a template in an annotated drawing as in the drawing
without the annotations, and a visit of an annotation only adds to the list of what was passed
over.  So all visits come to the same, up to that list.

## Main definitions

* `BuildReport.withoutIgnored`, `Draft.withoutIgnored`: a report and a draft without the list of
  what was passed over.

The main statements are `Topology.Annotated.visit_congr`,
`Topology.Annotated.visits_withoutIgnored` and `Topology.Annotated.build_eq`.
-/

namespace CloudCanvas

namespace Topology.Annotated

variable {t t' : Topology} {row : List Node} (h : t.Annotated row t') (wf : t.WellFormed)
  (wf' : t'.WellFormed)
include h wf wf'

/-! ## What the kinds make of elements -/

section Kinds

variable {g g' : Group} {n n' : Node}

theorem network_congr (mem : g ∈ t.groups) (mem' : g' ∈ t'.groups)
    (same : (Element.group g).SameContent (.group g')) :
    VirtualNetwork.resource t' g' = VirtualNetwork.resource t g := by
  have id : g'.id = g.id := same.id
  have inside := h.subnets_forall₂ wf wf' mem mem' id
  simp (disch := decide) only [VirtualNetwork.resource, VirtualNetwork.addressSpace,
    VirtualNetwork.prefixParameter, same.textProperty, same.displayName,
    VirtualNetwork.entries_congr id inside, id]

/-- The address of an interface stays. -/
theorem publicIp_cases (mem : n ∈ t.nodes) (id : n'.id = n.id)
    (ofKind : n.kind = ResourceKind.networkInterface.tag) :
    (∃ e, NetworkInterface.publicIp t n = .error e ∧ NetworkInterface.publicIp t' n' = .error e) ∨
      ∃ ip ip', NetworkInterface.publicIp t n = .ok ip ∧
        NetworkInterface.publicIp t' n' = .ok ip' ∧ Option.Rel Element.SameContent ip ip' := by
  have linked := h.linkedOfKind_forall₂ wf wf' (node_mem_elements mem)
    (fun outside => outside _ ofKind) .publicIp
  rw [Element.id] at linked
  rw [NetworkInterface.publicIp, NetworkInterface.publicIp, id]
  generalize t.linkedOfKind n.id .publicIp = ips at linked
  generalize t'.linkedOfKind n.id .publicIp = ips' at linked
  cases linked with
  | nil => exact .inr ⟨none, none, rfl, rfl, .none⟩
  | cons first rest =>
      cases rest with
      | nil => exact .inr ⟨some _, some _, rfl, rfl, .some first⟩
      | cons _ rest => exact .inl ⟨_, rfl, by simp [rest.length_eq]⟩

theorem interface_congr (mem : n ∈ t.nodes) (alike : n.Alike n')
    (ofKind : n.kind = ResourceKind.networkInterface.tag) :
    NetworkInterface.resource t' n' = NetworkInterface.resource t n := by
  have same := alike.content .networkInterface ofKind
  have id : n'.id = n.id := same.id
  simp only [NetworkInterface.resource, NetworkInterface.subnet, NetworkInterface.network,
    same.displayName, id]
  -- the group around it, the group around that one and its address are looked up in turn
  rcases h.parentOf_filter_cases wf wf' (node_mem_elements mem) alike .subnet with
    ⟨free, free'⟩ | ⟨subnet, known, subnet', -, alikeSubnet, sameSubnet, around, around'⟩
  · simp only [free, free', error_bind]
  simp only [around, around', ok_bind, sameSubnet.displayName]
  rcases h.parentOf_filter_cases wf wf' (group_mem_elements known) alikeSubnet .virtualNetwork with
    ⟨free, free'⟩ | ⟨network, -, network', -, -, sameNetwork, outer, outer'⟩
  · simp only [free, free', error_bind]
  simp only [outer, outer', ok_bind, sameNetwork.displayName]
  rcases h.publicIp_cases wf wf' mem id ofKind with
    ⟨e, refused, refused'⟩ | ⟨ip, ip', hIp, hIp', same⟩
  · simp only [refused, refused', error_bind]
  · cases same with
    | none => simp only [hIp, hIp', ok_bind]
    | some first => simp only [hIp, hIp', ok_bind, Option.toList, List.map, first.displayName]

theorem machine_congr (mem : n ∈ t.nodes) (alike : n.Alike n')
    (ofKind : n.kind = ResourceKind.virtualMachine.tag) :
    VirtualMachine.resource t' n' = VirtualMachine.resource t n := by
  have same := alike.content .virtualMachine ofKind
  have id : n'.id = n.id := same.id
  have linked := h.linkedOfKind_forall₂ wf wf' (node_mem_elements mem)
    (fun outside => outside _ ofKind) .networkInterface
  have references : VirtualMachine.interfaceReferences t' n' =
      VirtualMachine.interfaceReferences t n := by
    rw [VirtualMachine.interfaceReferences, VirtualMachine.interfaceReferences, id, eq_comm,
      ← List.forall₂_eq_eq_eq, List.forall₂_map_left_iff, List.forall₂_map_right_iff]
    exact linked.imp fun _ _ same => by rw [same.displayName]
  simp (disch := decide) only [VirtualMachine.resource, VirtualMachine.sizeParameter,
    references, same.textProperty, same.displayName, id]

theorem app_congr (mem : n ∈ t.nodes) (alike : n.Alike n')
    (ofKind : n.kind = ResourceKind.webApp.tag) :
    WebApp.resource t' n' = WebApp.resource t n := by
  have same := alike.content .webApp ofKind
  have id : n'.id = n.id := same.id
  have linked := h.linkedOfKind_forall₂ wf wf' (node_mem_elements mem)
    (fun outside => outside _ ofKind) .appServicePlan
  rw [WebApp.resource, WebApp.resource, WebApp.plan, WebApp.plan, same.displayName,
    WebApp.httpsOnly_congr same, id]
  rw [Element.id] at linked
  generalize t.linkedOfKind n.id .appServicePlan = plans at linked
  generalize t'.linkedOfKind n.id .appServicePlan = plans' at linked
  cases linked with
  | nil => rfl
  | cons first rest =>
      cases rest with
      | nil => simp only [ok_bind, first.displayName]
      | cons _ rest => simp [rest.length_eq]

/-- What an element is in a template stays. -/
theorem resource_congr {element other : Element} (mem : element ∈ t.elements)
    (mem' : other ∈ t'.elements) (alike : element.Alike other) {kind : ResourceKind}
    (ofKind : element.kind = kind.tag) :
    (Capability.ofKind kind other).resource t' = (Capability.ofKind kind element).resource t := by
  have same := alike.content kind ofKind
  have id := alike.id
  cases element with
  | node node =>
      have known : node ∈ t.nodes := by simpa [elements] using mem
      cases other with
      | group group => cases alike.isGroup
      | node node' =>
          cases kind with
          | networkInterface => exact h.interface_congr wf wf' known alike ofKind
          | publicIp => exact PublicIp.resource_congr same
          | virtualMachine => exact h.machine_congr wf wf' known alike ofKind
          | storageAccount => exact StorageAccount.resource_congr same
          | appServicePlan => exact congrArg Except.ok (AppServicePlan.resource_congr same)
          | webApp => exact h.app_congr wf wf' known alike ofKind
          | virtualNetwork | subnet => simp [Capability.ofKind, Capability.resource, id]
  | group group =>
      have known : group ∈ t.groups := by simpa [elements] using mem
      cases other with
      | node node => cases alike.isGroup
      | group group' =>
          have listed : group' ∈ t'.groups := by simpa [elements] using mem'
          rw [Element.id] at id
          cases kind with
          | virtualNetwork => exact h.network_congr wf wf' known listed same
          | _ => simp [Capability.ofKind, Capability.resource, Element.id, id]

end Kinds

/-! ## Visits -/

section Visit

variable {element other : Element} (mem : element ∈ t.elements) (mem' : other ∈ t'.elements)
  (alike : element.Alike other)
include mem mem' alike

theorem visitOwn_congr (draft : Draft) :
    draft.visitOwn t' other = draft.visitOwn t element := by
  rw [Draft.visitOwn, Draft.visitOwn, Capability.of?, Capability.of?, alike.kind, alike.id]
  cases found : ResourceKind.ofTag? element.kind with
  | none => rfl
  | some kind =>
      have ofKind := ResourceKind.ofTag?_eq_some_iff.1 found
      simp only [Option.map_some, Draft.contribute, Capability.parameters_congr alike ofKind,
        h.resource_congr wf wf' mem mem' alike ofKind]

/-- **A visit of an element does the same in an annotated drawing.** -/
theorem visit_congr (draft : Draft) : draft.visit t' other = draft.visit t element := by
  have own := h.visitOwn_congr wf wf' mem mem' alike draft
  cases element with
  | node node =>
      cases other with
      | group group => cases alike.isGroup
      | node node' => exact own
  | group group =>
      have known : group ∈ t.groups := by simpa [elements] using mem
      cases other with
      | node node => cases alike.isGroup
      | group group' =>
          have id : group'.id = group.id := alike.id
          rw [Draft.visit, Draft.visit, h.isDelegated_eq wf wf' known alike, own, id]

end Visit

end Topology.Annotated

/-! ## Visits of annotations -/

/-- A report without the list of what was passed over. -/
def BuildReport.withoutIgnored (report : BuildReport) : BuildReport :=
  { report with ignored := [] }

/-- Reports that differ in that list alone. -/
theorem BuildReport.eq_of_withoutIgnored_eq {report report' : BuildReport}
    (same : report.withoutIgnored = report'.withoutIgnored) :
    report' = { report with ignored := report'.ignored } := by
  obtain ⟨exported, delegated, ignored, replaced⟩ := report
  obtain ⟨exported', delegated', ignored', replaced'⟩ := report'
  cases same
  rfl

namespace Draft

variable {t : Topology} {element : Element}

/-- A draft without the list of what was passed over. -/
def withoutIgnored (draft : Draft) : Draft :=
  { draft with report := draft.report.withoutIgnored }

/-- An annotation is passed over. -/
theorem visit_note (outside : element.IsNote) (draft : Draft) :
    draft.visit t element = .ok { draft with
      report := { draft.report with ignored := draft.report.ignored ++ [element.id] } } := by
  have own : draft.visitOwn t element = .ok { draft with
      report := { draft.report with ignored := draft.report.ignored ++ [element.id] } } := by
    rw [visitOwn, Capability.of?, Element.isNote_iff.1 outside]
    rfl
  cases element with
  | node node => exact own
  | group group =>
      have notDelegated : ¬ t.isDelegated group = true := fun delegated =>
        outside .subnet (Topology.kind_of_isDelegated delegated)
      rw [visit, if_neg notDelegated, own]

theorem reserve_withoutIgnored (draft : Draft) (id : String)
    (given : List (String × ParameterDefinition)) :
    draft.withoutIgnored.reserve id given = (draft.reserve id given).map withoutIgnored := by
  rw [reserve, reserve]
  cases given with
  | nil => rfl
  | cons first others =>
      cases found : draft.scopes.lookup (parameterScope id) with
      | none => simp [withoutIgnored, found, Except.map]
      | some owner => simp [withoutIgnored, found, Except.map]

theorem contribute_withoutIgnored (draft : Draft) (id : String) (capability : Capability) :
    draft.withoutIgnored.contribute t id capability =
      (draft.contribute t id capability).map withoutIgnored := by
  rw [contribute, contribute]
  cases capability.parameters with
  | error e => rfl
  | ok given =>
      simp only [ok_bind, reserve_withoutIgnored]
      cases draft.reserve id given with
      | error e => rfl
      | ok kept =>
          cases made : capability.resource t with
          | error e => rfl
          | ok made => rfl

/-- **What has been passed over is not read.** -/
theorem visit_withoutIgnored (draft : Draft) :
    (draft.withoutIgnored.visit t element).map withoutIgnored =
      (draft.visit t element).map withoutIgnored := by
  have own : (draft.withoutIgnored.visitOwn t element).map withoutIgnored =
      (draft.visitOwn t element).map withoutIgnored := by
    rw [visitOwn, visitOwn]
    cases Capability.of? element with
    | none => rfl
    | some capability =>
        simp only [contribute_withoutIgnored]
        cases draft.contribute t element.id capability with
        | error e => rfl
        | ok draft' => rfl
  cases element with
  | node node => exact own
  | group group =>
      rw [visit, visit]
      by_cases delegated : t.isDelegated group = true
      · rw [if_pos delegated, if_pos delegated]
        rfl
      · rwa [if_neg delegated, if_neg delegated]

end Draft

/-! ## All visits -/

namespace Topology.Annotated

variable {t t' : Topology} {row : List Node} (h : t.Annotated row t') (wf : t.WellFormed)
  (wf' : t'.WellFormed)
include h wf wf'

/-- **All visits come to the same in an annotated drawing**, but for what is passed over. -/
theorem visits_withoutIgnored (draft : Draft) :
    (t.visitOrder.foldlM (Draft.visit t) draft).map Draft.withoutIgnored =
      ((t'.visitOrderBy row).foldlM (Draft.visit t') draft).map Draft.withoutIgnored := by
  refine (h.grown_visitOrder wf wf').foldlM_map_eq ?_ ?_ rfl
  · intro b c same element visited other visited' alike
    have mem := wf.visitOrder_perm.mem_iff.1 visited
    have mem' := (h.visitOrderBy_perm wf').mem_iff.1 visited'
    rw [h.visit_congr wf wf' mem mem' alike, ← Draft.visit_withoutIgnored b, same,
      Draft.visit_withoutIgnored c]
  · intro c other _ fresh
    exact ⟨_, Draft.visit_note fresh.1 c, rfl⟩

/-- All visits come to the same in a drawing without new elements. -/
theorem visits_eq (len : t'.elements.length ≤ t.elements.length) (draft : Draft) :
    t.visitOrder.foldlM (Draft.visit t) draft =
      (t'.visitOrderBy row).foldlM (Draft.visit t') draft := by
  rw [← (h.visitOrderBy_perm wf').length_eq, ← wf.visitOrder_perm.length_eq] at len
  have alike := (h.grown_visitOrder wf wf').forall₂ len
  refine foldlM_congr alike fun element visited other visited' alike draft => ?_
  have mem := wf.visitOrder_perm.mem_iff.1 visited
  have mem' := (h.visitOrderBy_perm wf').mem_iff.1 visited'
  exact (h.visit_congr wf wf' mem mem' alike draft).symm

omit h in
/-- A drawing without new elements is exported the same. -/
theorem build_eq (h : t.Annotated t'.nodes t') (len : t'.elements.length = t.elements.length) :
    t.build = t'.build := by
  have empty : t.isEmpty = t'.isEmpty := by
    rw [Bool.eq_iff_iff, isEmpty_iff_length, isEmpty_iff_length, len]
  have visits := h.visits_eq wf wf' len.le Draft.start
  rw [build, build, empty, visits]
  rfl

end Topology.Annotated

end CloudCanvas
