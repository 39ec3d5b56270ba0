import CloudCanvas.Proofs.Export.Kinds

/-!
# Visiting the elements

A visit succeeds if the element is delegated, is an annotation, or contributes and has
parameters of a scope that nobody has reserved.  Visiting elements one after another
succeeds if each of them could be visited alone and no two of them reserve one scope.

## Main definitions

* `Topology.Accepts`: what a visit demands of an element apart from its scope.
* `Draft.reserved`: the scopes of the elements that have been visited.

The main statement is `Draft.foldlM_visit_iff`.
-/

namespace CloudCanvas

variable {t : Topology} {element : Element}

namespace ResourceKind

theorem ofTag?_tag (kind : ResourceKind) : ofTag? kind.tag = some kind := by
  cases kind <;> rfl

theorem ofTag?_eq_some_iff {tag : String} {kind : ResourceKind} :
    ofTag? tag = some kind ↔ tag = kind.tag := by
  constructor
  · intro found
    have same := List.find?_some (p := fun other : ResourceKind => other.tag == tag) found
    exact (eq_of_beq same).symm
  · rintro rfl
    exact ofTag?_tag kind

theorem tag_injective {kind other : ResourceKind} (h : kind.tag = other.tag) : kind = other := by
  have found := ofTag?_tag kind
  rw [h, ofTag?_tag] at found
  exact (Option.some.inj found).symm

end ResourceKind

theorem Element.hasParameters_iff_mem {kind : ResourceKind} (h : element.kind = kind.tag) :
    element.HasParameters ↔ kind ∈ [ResourceKind.virtualNetwork, .publicIp, .virtualMachine,
      .storageAccount, .appServicePlan] := by
  constructor
  · rintro ⟨other, mem, eq⟩
    rwa [ResourceKind.tag_injective (h.symm.trans eq)]
  · exact fun mem => ⟨kind, mem, h⟩

/-! ## Which elements have parameters -/

section Parameters

variable {given : List (String × ParameterDefinition)}

private theorem network_parameters_ne_nil {network : Group}
    (h : VirtualNetwork.parameters network = .ok given) : given ≠ [] := by
  obtain ⟨space, -, h⟩ := bind_eq_ok_iff.1 h
  cases h
  simp

private theorem ip_parameters_ne_nil {ip : Node} (h : PublicIp.parameters ip = .ok given) :
    given ≠ [] := by
  obtain ⟨allocation, -, h⟩ := bind_eq_ok_iff.1 h
  split at h <;> cases h
  simp

private theorem machine_parameters_ne_nil {machine : Node}
    (h : VirtualMachine.parameters machine = .ok given) : given ≠ [] := by
  obtain ⟨size, -, h⟩ := bind_eq_ok_iff.1 h
  obtain ⟨username, -, h⟩ := bind_eq_ok_iff.1 h
  cases h
  simp

private theorem account_parameters_ne_nil {account : Node}
    (h : StorageAccount.parameters account = .ok given) : given ≠ [] := by
  obtain ⟨sku, -, h⟩ := bind_eq_ok_iff.1 h
  split at h <;> cases h
  simp

private theorem plan_parameters_ne_nil {plan : Node}
    (h : AppServicePlan.parameters plan = .ok given) : given ≠ [] := by
  obtain ⟨sku, -, h⟩ := bind_eq_ok_iff.1 h
  cases h
  simp

/-- An element has parameters exactly if its kind is one that has them. -/
theorem Capability.parameters_eq_nil_iff {kind : ResourceKind} (h : element.kind = kind.tag)
    (eq : (ofKind kind element).parameters = .ok given) :
    given = [] ↔ ¬ element.HasParameters := by
  rw [Element.hasParameters_iff_mem h]
  cases kind <;> cases element <;> try cases eq
  · exact iff_of_false (network_parameters_ne_nil eq) (by simp)
  · exact iff_of_true rfl (by simp)
  · exact iff_of_false (ip_parameters_ne_nil eq) (by simp)
  · exact iff_of_false (machine_parameters_ne_nil eq) (by simp)
  · exact iff_of_false (account_parameters_ne_nil eq) (by simp)
  · exact iff_of_false (plan_parameters_ne_nil eq) (by simp)
  · exact iff_of_true rfl (by simp)

end Parameters

/-! ## One visit -/

namespace Topology

/-- An element that is delegated, an annotation, or contributes. -/
def Accepts (t : Topology) (element : Element) : Prop :=
  (∃ group, element = .group group ∧ t.isDelegated group = true) ∨
    ∀ kind : ResourceKind, element.kind = kind.tag → t.Contributes (.ofKind kind element)

/-- A delegated group is a subnet. -/
theorem kind_of_isDelegated {group : Group} (h : t.isDelegated group = true) :
    group.kind = ResourceKind.subnet.tag := by
  rw [isDelegated, groupRole] at h
  split at h
  · cases h
  · rename_i role
    split at role
    · rename_i found
      exact ResourceKind.ofTag?_eq_some_iff.1 found
    · cases role

end Topology

namespace Draft

variable {draft draft' : Draft} {id : String}

/-- The scopes that are taken. -/
def reserved (draft : Draft) : List String :=
  draft.scopes.map Prod.fst

/-- A scope is reserved for an element that has parameters, and only if nobody has it. -/
theorem reserve_eq_ok_iff {parameters : List (String × ParameterDefinition)} :
    draft.reserve id parameters = .ok draft' ↔
      (parameters = [] ∧ draft' = draft) ∨
        (parameters ≠ [] ∧ parameterScope id ∉ draft.reserved ∧
          draft' = { draft with scopes := (parameterScope id, id) :: draft.scopes }) := by
  have free : draft.scopes.lookup (parameterScope id) = none ↔
      parameterScope id ∉ draft.reserved := by
    rw [List.lookup_eq_none_iff, reserved]
    simp only [List.mem_map, not_exists, not_and, bne_iff_ne]
    exact forall₂_congr fun _ _ => ne_comm
  rw [reserve]
  cases parameters with
  | nil => simp [eq_comm]
  | cons first others =>
      cases found : draft.scopes.lookup (parameterScope id) with
      | none => simp [← free, found, eq_comm]
      | some owner => simp [← free, found]

/-- What an element contributes is entered if it can be had and its scope is free. -/
theorem contribute_eq_ok_iff {capability : Capability} :
    draft.contribute t id capability = .ok draft' ↔ ∃ given, capability.parameters = .ok given ∧
      ∃ kept, draft.reserve id given = .ok kept ∧ ∃ made, capability.resource t = .ok made ∧
        kept.enter id given made = draft' := by
  simp only [contribute, bind_eq_ok_iff, pure, Except.pure, Except.ok.injEq]

@[simp] theorem reserved_enter (draft : Draft) (id : String)
    (given : List (String × ParameterDefinition)) (made : Resource) :
    (draft.enter id given made).reserved = draft.reserved := rfl

theorem reserved_of_reserve {kind : ResourceKind} (h : element.kind = kind.tag)
    {given : List (String × ParameterDefinition)}
    (eq : (Capability.ofKind kind element).parameters = .ok given)
    (kept : draft.reserve element.id given = .ok draft') :
    draft'.reserved = if element.HasParameters then
      parameterScope element.id :: draft.reserved else draft.reserved := by
  have nil := Capability.parameters_eq_nil_iff h eq
  rcases reserve_eq_ok_iff.1 kept with ⟨none, rfl⟩ | ⟨some, -, rfl⟩
  · rw [if_neg (nil.1 none)]
  · rw [if_pos (not_not.1 (mt nil.2 some))]
    rfl

/-- What a visit demands of an element that is not delegated. -/
theorem exists_visitOwn_iff : (∃ draft', draft.visitOwn t element = .ok draft') ↔
    (∀ kind : ResourceKind, element.kind = kind.tag → t.Contributes (.ofKind kind element)) ∧
      (element.HasParameters → parameterScope element.id ∉ draft.reserved) := by
  rw [visitOwn, Capability.of?]
  cases found : ResourceKind.ofTag? element.kind with
  | none =>
      have unknown : ∀ kind : ResourceKind, element.kind ≠ kind.tag := by
        intro kind eq
        rw [eq, ResourceKind.ofTag?_tag] at found
        cases found
      refine iff_of_true ⟨_, rfl⟩ ⟨fun kind eq => absurd eq (unknown kind), ?_⟩
      rintro ⟨kind, -, eq⟩
      exact absurd eq (unknown kind)
  | some kind =>
      have eq := ResourceKind.ofTag?_eq_some_iff.1 found
      simp only [Option.map_some, contribute_eq_ok_iff]
      constructor
      · rintro ⟨_, given, hGiven, kept, hKept, made, hMade, rfl⟩
        refine ⟨fun other same => ?_, fun has => ?_⟩
        · obtain rfl := ResourceKind.tag_injective (eq.symm.trans same)
          exact ⟨⟨given, hGiven⟩, made, hMade⟩
        · have nil := Capability.parameters_eq_nil_iff eq hGiven
          rcases reserve_eq_ok_iff.1 hKept with ⟨none, -⟩ | ⟨-, free, -⟩
          · exact absurd has (nil.1 none)
          · exact free
      · rintro ⟨contributes, free⟩
        obtain ⟨⟨given, hGiven⟩, made, hMade⟩ := contributes kind eq
        have nil := Capability.parameters_eq_nil_iff eq hGiven
        obtain ⟨kept, hKept⟩ : ∃ kept, draft.reserve element.id given = .ok kept := by
          by_cases none : given = []
          · exact ⟨draft, reserve_eq_ok_iff.2 (.inl ⟨none, rfl⟩)⟩
          · exact ⟨_, reserve_eq_ok_iff.2
              (.inr ⟨none, free (not_not.1 (mt nil.2 none)), rfl⟩)⟩
        exact ⟨_, given, hGiven, kept, hKept, made, hMade, rfl⟩

/-- A visit reserves the scope of an element with parameters and no other. -/
theorem reserved_visitOwn (h : draft.visitOwn t element = .ok draft') :
    draft'.reserved = if element.HasParameters then
      parameterScope element.id :: draft.reserved else draft.reserved := by
  rw [visitOwn, Capability.of?] at h
  cases found : ResourceKind.ofTag? element.kind with
  | none =>
      rw [found] at h
      cases h
      rw [if_neg]
      · rfl
      · rintro ⟨kind, -, eq⟩
        rw [eq, ResourceKind.ofTag?_tag] at found
        cases found
  | some kind =>
      have eq := ResourceKind.ofTag?_eq_some_iff.1 found
      rw [found] at h
      obtain ⟨given, hGiven, kept, hKept, made, -, rfl⟩ := contribute_eq_ok_iff.1 h
      exact (reserved_enter kept _ given made).trans (reserved_of_reserve eq hGiven hKept)

theorem not_hasParameters_of_isDelegated {group : Group} (h : t.isDelegated group = true) :
    ¬ (Element.group group).HasParameters := by
  have kind : (Element.group group).kind = ResourceKind.subnet.tag :=
    Topology.kind_of_isDelegated h
  rw [Element.hasParameters_iff_mem kind]
  decide

theorem exists_visit_iff : (∃ draft', draft.visit t element = .ok draft') ↔
    t.Accepts element ∧
      (element.HasParameters → parameterScope element.id ∉ draft.reserved) := by
  cases element with
  | node node =>
      rw [visit, exists_visitOwn_iff, Topology.Accepts]
      simp
  | group group =>
      rw [visit]
      by_cases delegated : t.isDelegated group = true
      · rw [if_pos delegated]
        exact iff_of_true ⟨_, rfl⟩ ⟨.inl ⟨group, rfl, delegated⟩,
          fun has => absurd has (not_hasParameters_of_isDelegated delegated)⟩
      · rw [if_neg delegated, exists_visitOwn_iff, Topology.Accepts]
        simp [delegated]

theorem reserved_visit (h : draft.visit t element = .ok draft') :
    draft'.reserved = if element.HasParameters then
      parameterScope element.id :: draft.reserved else draft.reserved := by
  cases element with
  | node node => exact reserved_visitOwn h
  | group group =>
      rw [visit] at h
      by_cases delegated : t.isDelegated group = true
      · rw [if_pos delegated] at h
        cases h
        rw [if_neg (not_hasParameters_of_isDelegated delegated)]
        rfl
      · rw [if_neg delegated] at h
        exact reserved_visitOwn h

/-! ## All visits -/

/-- **Visits succeed together** if each element could be visited alone, finds its scope
free, and shares it with no other. -/
theorem foldlM_visit_iff {elements : List Element} :
    (∃ draft', elements.foldlM (visit t) draft = .ok draft') ↔
      (∀ element ∈ elements, t.Accepts element) ∧
        (∀ element ∈ elements, element.HasParameters →
          parameterScope element.id ∉ draft.reserved) ∧
        ((elements.filter (·.HasParameters)).map (fun element =>
          parameterScope element.id)).Nodup := by
  induction elements generalizing draft with
  | nil => simp [pure, Except.pure]
  | cons element rest ih =>
      rw [exists_foldlM_cons_eq_ok_iff, List.forall_mem_cons, List.forall_mem_cons]
      by_cases has : element.HasParameters
      · have later : ∀ next, draft.visit t element = .ok next →
            next.reserved = parameterScope element.id :: draft.reserved := fun next h => by
          rw [reserved_visit h, if_pos has]
        rw [List.filter_cons_of_pos (by simpa using has), List.map_cons, List.nodup_cons]
        constructor
        · rintro ⟨next, visited, others⟩
          obtain ⟨accepts, free⟩ := exists_visit_iff.1 ⟨next, visited⟩
          obtain ⟨acceptsRest, freeRest, nodup⟩ := ih.1 others
          simp only [later next visited, List.mem_cons, not_or] at freeRest
          refine ⟨⟨accepts, acceptsRest⟩, ⟨free, fun other mem h => (freeRest other mem h).2⟩,
            fun twice => ?_, nodup⟩
          obtain ⟨other, mem, eq⟩ := List.mem_map.1 twice
          obtain ⟨mem, h⟩ := List.mem_filter.1 mem
          exact (freeRest other mem (of_decide_eq_true h)).1 eq
        · rintro ⟨⟨accepts, acceptsRest⟩, ⟨free, freeRest⟩, once, nodup⟩
          obtain ⟨next, visited⟩ := exists_visit_iff.2 ⟨accepts, free⟩
          refine ⟨next, visited, ih.2 ⟨acceptsRest, fun other mem h => ?_, nodup⟩⟩
          rw [later next visited, List.mem_cons, not_or]
          refine ⟨fun eq => once (List.mem_map.2 ⟨other, ?_, eq⟩), freeRest other mem h⟩
          exact List.mem_filter.2 ⟨mem, decide_eq_true h⟩
      · have later : ∀ next, draft.visit t element = .ok next →
            next.reserved = draft.reserved := fun next h => by
          rw [reserved_visit h, if_neg has]
        rw [List.filter_cons_of_neg (by simpa using has)]
        constructor
        · rintro ⟨next, visited, others⟩
          obtain ⟨accepts, free⟩ := exists_visit_iff.1 ⟨next, visited⟩
          obtain ⟨acceptsRest, freeRest, nodup⟩ := ih.1 others
          rw [later next visited] at freeRest
          exact ⟨⟨accepts, acceptsRest⟩, ⟨free, freeRest⟩, nodup⟩
        · rintro ⟨⟨accepts, acceptsRest⟩, ⟨free, freeRest⟩, nodup⟩
          obtain ⟨next, visited⟩ := exists_visit_iff.2 ⟨accepts, free⟩
          refine ⟨next, visited, ih.2 ⟨acceptsRest, ?_, nodup⟩⟩
          rwa [later next visited]

end Draft

end CloudCanvas
