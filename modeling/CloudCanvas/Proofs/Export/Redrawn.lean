import CloudCanvas.Proofs.Export.Congruence
import CloudCanvas.Proofs.Export.Parameters

/-!
# The order of the nodes

A drawing can be drawn again with its nodes in another order.  It can be exported again, and
its template deploys the same resources, in another order, and asks for the same parameters.
Only the name of the login depends on the order: the last machine says it.

## Main definitions

* `Topology.Redrawn`: two drawings that differ in the order of their nodes.
* `Build.SameUpToOrder`: two exports that differ in an order, and in the name of the login.

The main statement is `Topology.build_of_redrawn`.
-/

namespace CloudCanvas

/-- **A drawing drawn again** with its nodes in another order. -/
structure Topology.Redrawn (t t' : Topology) : Prop where
  nodes : t.nodes.Perm t'.nodes
  groups : List.Forall₂ (fun group group' => group'.toGroupRecord = group.toGroupRecord ∧
    group'.childGroups = group.childGroups ∧ group.childNodes.Perm group'.childNodes)
      t.groups t'.groups
  links : t'.links = t.links

/-- **Two exports that differ in an order alone**: they deploy the same resources, ask for the
same parameters and say of the same elements that they are delegated or ignored.  What is asked
for may differ in the name of the login. -/
structure Build.SameUpToOrder (b b' : Build) : Prop where
  resources : b.template.resources.Perm b'.template.resources
  parameters : b.template.parameters.keys = b'.template.parameters.keys
  definitions : ∀ name, name ≠ VirtualMachine.adminUsername →
    b.template.parameters.get? name = b'.template.parameters.get? name
  delegated : b.report.delegated = b'.report.delegated
  ignored : b.report.ignored.Perm b'.report.ignored

/-! ## Contributions -/

namespace Contribution

variable {t : Topology} {c other : Contribution} {name : String}

/-- What an element contributes is determined. -/
theorem eq_of_made (kind : c.element.kind = c.kind.tag)
    (makes : t.Makes c.element c.kind c.parameters c.resource)
    (kind' : other.element.kind = other.kind.tag)
    (makes' : t.Makes other.element other.kind other.parameters other.resource)
    (same : c.element = other.element) : c = other := by
  obtain ⟨element, k, given, made⟩ := c
  obtain ⟨element', k', given', made'⟩ := other
  simp only at kind makes kind' makes' same
  subst same
  obtain rfl := ResourceKind.tag_injective (kind.symm.trans kind')
  obtain ⟨parameters, resource⟩ := Topology.makes_iff.1 makes
  obtain ⟨parameters', resource'⟩ := Topology.makes_iff.1 makes'
  rw [parameters] at parameters'
  rw [resource] at resource'
  cases parameters'
  cases resource'
  rfl

/-- All machines ask for the same password. -/
theorem eq_of_adminPassword (makes : t.Makes c.element c.kind c.parameters c.resource)
    {definition : ParameterDefinition}
    (given : (VirtualMachine.adminPassword, definition) ∈ c.parameters) :
    definition = (ParameterDefinition.ofType .secureString).described
      "Administrator password for all virtual machines" := by
  have login : VirtualMachine.adminPassword ∈ loginParameters := by decide
  have notOwn : ∀ id, ¬ IsParameterOf id VirtualMachine.adminPassword := fun id =>
    not_isParameterOf_login login
  have machine : c.kind = .virtualMachine := by
    have listed : VirtualMachine.adminPassword ∈ c.parameters.map Prod.fst :=
      List.mem_map_of_mem given
    rw [makes.map_fst, List.mem_append, Option.mem_toList] at listed
    by_contra other
    rcases listed with own | shared
    · exact notOwn _ (isParameterOf_of_own? own)
    · rw [Contribution.login, if_neg other] at shared
      cases shared
  obtain ⟨element, kind, parameters, made⟩ := c
  cases machine
  cases makes with
  | @virtualMachine node _ _ asked _ =>
      obtain ⟨size, -, asked⟩ := bind_eq_ok_iff.1 asked
      obtain ⟨username, -, asked⟩ := bind_eq_ok_iff.1 asked
      cases asked
      rcases List.mem_cons.1 given with own | given
      · have own : VirtualMachine.adminPassword = parameterName node.id "vmSize" :=
          congrArg Prod.fst own
        exact absurd ⟨"vmSize", by decide, own⟩ (notOwn node.id)
      · simpa [VirtualMachine.adminPassword, VirtualMachine.adminUsername] using given

end Contribution

/-! ## Two orders of the visits -/

namespace Build.AssembledFrom

variable {t : Topology} {b b' : Build} {row : List Node}
  {contributions contributions' : List Contribution}
  (h : b.AssembledFrom t (t.visitOrderBy row) contributions)
  (h' : b'.AssembledFrom t t.visitOrder contributions') (wf : t.WellFormed)
  (perm : row.Perm t.nodes)

include h h' wf perm

/-- The contributions are the same, in another order. -/
theorem contributions_perm : contributions.Perm contributions' := by
  have visited : (t.visitOrderBy row).Perm t.visitOrder := (perm.map _).append_left _
  have elements : (contributions.map (·.element)).Perm (contributions'.map (·.element)) := by
    rw [h.elements_eq, h'.elements_eq]
    exact visited.filter _
  have nodup' := h'.nodup_map wf
  have nodup := elements.nodup_iff.2 nodup'
  have same : ∀ c ∈ contributions, ∀ other ∈ contributions', c.element = other.element →
      c = other := by
    intro c mem other mem' eq
    obtain ⟨kind, makes⟩ := h.made c mem
    obtain ⟨kind', makes'⟩ := h'.made other mem'
    exact Contribution.eq_of_made kind makes kind' makes' eq
  refine (List.perm_ext_iff_of_nodup (.of_map _ nodup) (.of_map _ nodup')).2 fun c => ?_
  constructor
  · intro mem
    obtain ⟨other, mem', eq⟩ := List.mem_map.1 (elements.mem_iff.1 (List.mem_map_of_mem mem))
    rwa [same c mem other mem' eq.symm]
  · intro mem'
    obtain ⟨other, mem, eq⟩ := List.mem_map.1 (elements.mem_iff.2 (List.mem_map_of_mem mem'))
    rwa [← same other mem c mem' eq]

omit h perm in
/-- Whoever asks for a parameter asks for the same, unless it is the name of the login. -/
theorem eq_of_given (exportable : t.Exportable) {c other : Contribution}
    (mem : c ∈ contributions') (mem' : other ∈ contributions') {name : String}
    (ne : name ≠ VirtualMachine.adminUsername) {definition definition' : ParameterDefinition}
    (given : (name, definition) ∈ c.parameters)
    (given' : (name, definition') ∈ other.parameters) : definition = definition' := by
  have listed : name ∈ c.parameters.map Prod.fst := List.mem_map_of_mem given
  rw [(h'.made c mem).2.map_fst, List.mem_append, Option.mem_toList] at listed
  rcases listed with own | login
  · obtain ⟨rfl, -⟩ := h'.eq_of_asked wf exportable mem mem' own
      (Contribution.isParameterOf_of_own? own) (List.mem_map_of_mem given')
    have nodup := h'.nodup_map_fst mem
    exact Option.some.inj (((lookup_eq_some_iff_mem nodup).2 given).symm.trans
      ((lookup_eq_some_iff_mem nodup).2 given'))
  · obtain rfl : name = VirtualMachine.adminPassword :=
      (List.mem_pair.1 (Contribution.mem_of_mem_login login)).resolve_left ne
    rw [Contribution.eq_of_adminPassword (h'.made c mem).2 given,
      Contribution.eq_of_adminPassword (h'.made other mem').2 given']

omit h h' wf perm in
/-- Only groups are delegated. -/
theorem idsOf_delegated (row : List Node) : t.idsOf (t.visitOrderBy row) .delegated =
    t.idsOf ((t.topLevelGroups.flatMap t.outline).map .group) .delegated := by
  have nodes : (row.map Element.node).filter (t.fate · = .delegated) = [] := by
    rw [List.filter_eq_nil_iff]
    intro element mem
    obtain ⟨node, -, rfl⟩ := List.mem_map.1 mem
    simp [Topology.fate, Topology.ownFate_ne_delegated]
  rw [Topology.idsOf, Topology.visitOrderBy, List.filter_append, nodes, List.append_nil,
    Topology.idsOf]

/-- **Two exports of one drawing**, with its nodes in two orders. -/
theorem sameUpToOrder (exportable : t.Exportable) : b.SameUpToOrder b' := by
  have contributed := h.contributions_perm h' wf perm
  have keys : ∀ name, name ∈ b.template.parameters.keys ↔ name ∈ b'.template.parameters.keys := by
    intro name
    simp only [h.mem_keys_iff, h'.mem_keys_iff, contributed.mem_iff]
  constructor
  · rw [h.resources_eq, h'.resources_eq]
    exact contributed.map _
  · exact Dict.keys_eq_of_mem_iff keys
  · intro name ne
    have there := keys name
    rw [Dict.mem_keys_iff, Dict.mem_keys_iff] at there
    cases found : b.template.parameters.get? name with
    | none =>
        rw [found] at there
        exact (Option.not_isSome_iff_eq_none.1 (mt there.2 (by simp))).symm
    | some definition =>
        rw [found] at there
        obtain ⟨definition', found'⟩ := Option.isSome_iff_exists.1 (there.1 rfl)
        obtain ⟨c, mem, given⟩ := h.exists_mem_of_get? found
        obtain ⟨other, mem', given'⟩ := h'.exists_mem_of_get? found'
        rw [found', h'.eq_of_given wf exportable (contributed.mem_iff.1 mem) mem' ne given given']
  · rw [h.delegated_eq, h'.delegated_eq, idsOf_delegated]
    exact (idsOf_delegated t.nodes).symm
  · have visited : (t.visitOrderBy row).Perm t.visitOrder := (perm.map _).append_left _
    rw [h.ignored_eq, h'.ignored_eq]
    exact (visited.filter _).map _

end Build.AssembledFrom

/-! ## Two drawings -/

namespace Topology

variable {t t' : Topology}

namespace Redrawn

variable (h : t.Redrawn t')
include h

/-- A drawing drawn again has the same elements as far as an export reads. -/
theorem annotated : t.Annotated t.nodes t' where
  nodes := .refl fun node _ => .refl (.node node)
  perm := h.nodes
  groups := .of_forall₂ (h.groups.imp fun _ _ both => .of_record_eq both.1)
  links := h.links ▸ .refl fun _ _ => ⟨rfl, rfl⟩

theorem length_elements : t'.elements.length = t.elements.length := by
  simp [elements, h.nodes.length_eq, h.groups.length_eq]

theorem isEmpty_eq : t'.isEmpty = t.isEmpty := by
  rw [Bool.eq_iff_iff, isEmpty_iff_length, isEmpty_iff_length, h.length_elements]

/-- The visits of the one are visits of the other, with the nodes in their old order. -/
theorem visits_eq (wf : t.WellFormed) (wf' : t'.WellFormed) :
    t.visitOrder.foldlM (Draft.visit t) Draft.start =
      (t'.visitOrderBy t.nodes).foldlM (Draft.visit t') Draft.start :=
  h.annotated.visits_eq wf wf' h.length_elements.le Draft.start

end Redrawn

/-- **The order of the nodes is not exported.**  A drawing drawn again with its nodes in another
order can be exported if it could, to the same template in another order, but for the name of
the login. -/
theorem build_of_redrawn (reachable : t.Reachable) (reachable' : t'.Reachable)
    (redrawn : t.Redrawn t') :
    (t.build = .ok none ↔ t'.build = .ok none) ∧
      ((∃ b, t.build = .ok (some b)) ↔ ∃ b', t'.build = .ok (some b')) ∧
        ∀ b b', t.build = .ok (some b) → t'.build = .ok (some b') → b.SameUpToOrder b' := by
  have wf := reachable.wellFormed
  have wf' := reachable'.wellFormed
  have visits := redrawn.visits_eq wf wf'
  have perm : (t'.visitOrderBy t.nodes).Perm t'.visitOrder :=
    (redrawn.nodes.map _).append_left _
  refine ⟨?_, ?_, ?_⟩
  · rw [build_eq_ok_none_iff, build_eq_ok_none_iff, redrawn.isEmpty_eq]
  · have built : ∀ t : Topology, (∃ b, t.build = .ok (some b)) ↔ t.isEmpty = false ∧
        ∃ draft, t.visitOrder.foldlM (Draft.visit t) Draft.start = .ok draft := fun t => by
      simp [build_eq_ok_some_iff]
    rw [built, built, redrawn.isEmpty_eq, visits, Draft.foldlM_visit_perm perm]
  · intro b b' hb hb'
    obtain ⟨contributions', assembled'⟩ := exists_contributions hb'
    obtain ⟨-, draft, done, rfl⟩ := build_eq_ok_some_iff.1 hb
    obtain ⟨contributions, assembled⟩ := exists_contributions_of_visits (visits ▸ done)
    exact assembled.sameUpToOrder assembled' wf' redrawn.nodes (wf'.exportable_of_build hb')

/-- So it is for a drawing with an element of every kind, whose nodes are drawn from the last to
the first. -/
theorem build_of_redrawn_everyKind :
    let drawing := run ∅ everyKind
    let again := run ∅ (everyKind.take 3 ++ ((everyKind.drop 3).take 8).reverse ++
      everyKind.drop 11)
    again ≠ drawing ∧ ∃ b b', drawing.build = .ok (some b) ∧ again.build = .ok (some b') ∧
      b.SameUpToOrder b' := by
  intro drawing again
  have redrawn : drawing.Redrawn again :=
    ⟨by decide +kernel, by decide +kernel, by decide +kernel⟩
  obtain ⟨-, exported, same⟩ := build_of_redrawn ⟨everyKind, rfl⟩ ⟨_, rfl⟩ redrawn
  obtain ⟨b, built⟩ := exists_build_everyKind
  obtain ⟨b', built'⟩ := exported.1 ⟨b, built⟩
  exact ⟨by decide +kernel, b, b', built, built', same b b' built built'⟩

end Topology

end CloudCanvas
