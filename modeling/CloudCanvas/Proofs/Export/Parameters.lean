import CloudCanvas.Proofs.Export.Contributions

/-!
# The parameters of a template

An exported element of a kind that has parameters has one of its own, whose name nobody else
can use; besides it the machines share two for their login.  A template asks for exactly the
parameters that its resources refer to, and only those of the login are ever replaced.

## Main definitions

* `ResourceKind.parameterSuffix?`: what the own parameter of each kind is about.
* `loginParameters`: the parameters that all machines share.
* `Build.OwnsParameters`: whose the parameters of a template are.

The main statement is `Topology.ownsParameters_of_build`.
-/

namespace CloudCanvas

/-- What the own parameter of an element of each kind is about. -/
def ResourceKind.parameterSuffix? : ResourceKind → Option String
  | .virtualNetwork => some "addressPrefix"
  | .publicIp => some "allocation"
  | .virtualMachine => some "vmSize"
  | .storageAccount | .appServicePlan => some "sku"
  | .subnet | .networkInterface | .webApp => none

/-- The parameters that all machines share. -/
def loginParameters : List String :=
  ["adminUsername", "adminPassword"]

theorem ResourceKind.notMem_of_parameterSuffix? {kind : ResourceKind} {suffix : String}
    (h : kind.parameterSuffix? = some suffix) : '_' ∉ suffix.toList := by
  cases kind <;> cases h <;> decide

/-- The parameters of the login are no element's own. -/
theorem not_isParameterOf_login {id name : String} (h : name ∈ loginParameters) :
    ¬ IsParameterOf id name := by
  rcases List.mem_pair.1 h with rfl | rfl
  · exact not_isParameterOf (by decide)
  · exact not_isParameterOf (by decide)

theorem Element.hasParameters_iff {element : Element} {kind : ResourceKind}
    (h : element.kind = kind.tag) :
    element.HasParameters ↔ ∃ suffix, kind.parameterSuffix? = some suffix := by
  rw [hasParameters_iff_mem h]
  cases kind <;> simp [ResourceKind.parameterSuffix?]

/-! ## One contribution -/

namespace Contribution

/-- The name of the parameter that an element has of its own. -/
def own? (c : Contribution) : Option String :=
  c.kind.parameterSuffix?.map (parameterName c.element.id)

/-- The names of the parameters that an element shares with others. -/
def login (c : Contribution) : List String :=
  if c.kind = .virtualMachine then loginParameters else []

/-- A name of the login is entered once for each machine, and no other name by the login. -/
theorem count_flatMap_login (contributions : List Contribution) (name : String) :
    (contributions.flatMap (·.login)).count name = if name ∈ loginParameters then
      (contributions.filter (fun c => decide (c.kind = .virtualMachine))).length else 0 := by
  have once : loginParameters.count name = if name ∈ loginParameters then 1 else 0 :=
    List.Nodup.count (by decide)
  induction contributions with
  | nil => simp
  | cons c rest ih =>
      rw [List.flatMap_cons, List.count_append, ih, login]
      by_cases machine : c.kind = .virtualMachine
      · by_cases listed : name ∈ loginParameters
        · simp [machine, once, listed, Nat.add_comm]
        · simp [machine, once, listed]
      · simp [machine]

theorem mem_of_mem_login {c : Contribution} {name : String} (h : name ∈ c.login) :
    name ∈ loginParameters := by
  rw [login] at h
  split at h
  · exact h
  · exact absurd h List.not_mem_nil

theorem nodup_login (c : Contribution) : c.login.Nodup := by
  rw [login]
  split <;> decide

theorem isParameterOf_of_own? {c : Contribution} {name : String} (h : c.own? = some name) :
    IsParameterOf c.element.id name := by
  obtain ⟨suffix, eq, rfl⟩ := Option.map_eq_some_iff.1 h
  exact ⟨suffix, ResourceKind.notMem_of_parameterSuffix? eq, rfl⟩

end Contribution

/-- An element asks for its own parameter, and for those of the login if it is a machine. -/
theorem Topology.Makes.map_fst {t : Topology} {c : Contribution}
    (h : t.Makes c.element c.kind c.parameters c.resource) :
    c.parameters.map Prod.fst = c.own?.toList ++ c.login := by
  obtain ⟨element, kind, given, made⟩ := c
  cases h with
  | virtualNetwork parameters resource => exact VirtualNetwork.map_fst_parameters parameters
  | networkInterface resource => rfl
  | publicIp parameters resource => exact PublicIp.map_fst_parameters parameters
  | virtualMachine parameters resource => exact VirtualMachine.map_fst_parameters parameters
  | storageAccount parameters resource => exact StorageAccount.map_fst_parameters parameters
  | appServicePlan parameters => exact AppServicePlan.map_fst_parameters parameters
  | webApp resource => rfl

open ParameterDefinition in
/-- **An element asks for texts**, in which nothing is evaluated. -/
theorem Topology.Makes.ofTexts_parameters {t : Topology} {element : Element} {kind : ResourceKind}
    {given : List (String × ParameterDefinition)} {made : Resource}
    (h : t.Makes element kind given made) : ∀ entry ∈ given, entry.2.OfTexts := by
  cases h with
  | virtualNetwork parameters resource =>
      obtain ⟨space, hSpace, parameters⟩ := bind_eq_ok_iff.1 parameters
      cases parameters
      have asked := ofTexts_text (isEvaluated_of_textProperty hSpace)
      simpa using asked.described (by simp [isEvaluated, isBracketed])
  | networkInterface resource => simp
  | publicIp parameters resource =>
      obtain ⟨allocation, hAllocation, parameters⟩ := bind_eq_ok_iff.1 parameters
      split at parameters <;> cases parameters
      have asked := ofTexts_text (isEvaluated_of_textProperty hAllocation)
      simpa using asked.allowing (by decide)
  | virtualMachine parameters resource =>
      obtain ⟨size, hSize, parameters⟩ := bind_eq_ok_iff.1 parameters
      obtain ⟨username, hUsername, parameters⟩ := bind_eq_ok_iff.1 parameters
      cases parameters
      have askedSize := ofTexts_text (isEvaluated_of_textProperty hSize)
      have askedUsername := ofTexts_text (isEvaluated_of_textProperty hUsername)
      simpa [askedUsername] using And.intro
        (askedSize.described (by simp [isEvaluated, isBracketed]))
        ((ofTexts_ofType .secureString).described (by decide))
  | storageAccount parameters resource =>
      obtain ⟨sku, hSku, parameters⟩ := bind_eq_ok_iff.1 parameters
      split at parameters <;> cases parameters
      have asked := ofTexts_text (isEvaluated_of_textProperty hSku)
      simpa using asked.allowing (by decide)
  | appServicePlan parameters =>
      obtain ⟨sku, hSku, parameters⟩ := bind_eq_ok_iff.1 parameters
      cases parameters
      simpa using ofTexts_text (isEvaluated_of_textProperty hSku)
  | webApp resource => simp

/-! ## All contributions -/

/-- The machines that were exported. -/
def Build.machines (b : Build) (t : Topology) : List Element :=
  t.elements.filter (fun element => decide (element.kind = ResourceKind.virtualMachine.tag ∧
    element.id ∈ b.report.exported))

namespace Build.AssembledFrom

variable {t : Topology} {b : Build} {contributions : List Contribution}

section Visited

variable {visited : List Element} (h : b.AssembledFrom t visited contributions)
include h

theorem parameters_eq : b.template.parameters = (Contribution.entered contributions).1 := by
  rw [h.template_eq]

theorem replaced_eq : b.report.replaced = (Contribution.entered contributions).2 := by
  rw [h.report_eq]

/-- The names that are entered: those that elements have of their own and those that they
share. -/
theorem names_perm : ((contributions.flatMap (·.parameters)).map Prod.fst).Perm
    (contributions.filterMap (·.own?) ++ contributions.flatMap (·.login)) := by
  have names : (contributions.flatMap (·.parameters)).map Prod.fst =
      contributions.flatMap (fun c => c.own?.toList ++ c.login) := by
    rw [List.map_flatMap]
    exact List.flatMap_congr fun c mem => (h.made c mem).2.map_fst
  rw [names, List.filterMap_eq_flatMap_toList]
  exact (List.flatMap_append_perm _ _ _).symm

theorem mem_keys_iff {name : String} : name ∈ b.template.parameters.keys ↔
    ∃ c ∈ contributions, name ∈ c.parameters.map Prod.fst := by
  rw [h.parameters_eq, Contribution.entered, Template.mem_keys_foldl_enterParameter,
    List.map_flatMap, List.mem_flatMap]

/-- The template asks for what some element gave. -/
theorem exists_mem_of_get? {name : String} {definition : ParameterDefinition}
    (found : b.template.parameters.get? name = some definition) :
    ∃ c ∈ contributions, (name, definition) ∈ c.parameters := by
  rw [h.parameters_eq, Contribution.entered, Template.get?_foldl_enterParameter] at found
  exact List.mem_flatMap.1 (List.mem_reverse.1 (mem_of_lookup_eq_some found))

/-- No element asks for two parameters with one name. -/
theorem nodup_map_fst {c : Contribution} (mem : c ∈ contributions) :
    (c.parameters.map Prod.fst).Nodup := by
  rw [(h.made c mem).2.map_fst, List.nodup_append]
  refine ⟨?_, c.nodup_login, fun name own other login same => ?_⟩
  · cases c.own? <;> simp
  · have of := Contribution.isParameterOf_of_own? (Option.mem_toList.1 own)
    exact not_isParameterOf_login (Contribution.mem_of_mem_login (same ▸ login)) of

end Visited

variable (h : b.AssembledFrom t t.visitOrder contributions)
include h

/-- A name is there if it is entered, by its owner or for the login. -/
theorem mem_keys_iff_count_pos {name : String} : name ∈ b.template.parameters.keys ↔
    0 < (contributions.filterMap (·.own?)).count name +
      (contributions.flatMap (·.login)).count name := by
  rw [← List.count_append, ← h.names_perm.count_eq, List.count_pos_iff, h.mem_keys_iff,
    List.map_flatMap, List.mem_flatMap]

/-- A name is replaced each time that it is entered but the first. -/
theorem count_replaced_eq (name : String) : b.report.replaced.count name =
    (contributions.filterMap (·.own?)).count name +
      (contributions.flatMap (·.login)).count name - 1 := by
  have entered : Template.timesEntered name (b.template.parameters, b.report.replaced) =
      (contributions.filterMap (·.own?)).count name +
        (contributions.flatMap (·.login)).count name := by
    rw [h.parameters_eq, h.replaced_eq, Prod.mk.eta, Contribution.entered,
      Template.timesEntered_foldl, h.names_perm.count_eq, List.count_append]
    exact Nat.zero_add _
  have there : b.template.parameters.contains name = true ↔ _ :=
    Dict.mem_keys_iff.symm.trans h.mem_keys_iff_count_pos
  simp only [Template.timesEntered, there] at entered
  split at entered <;> omega

omit h in
/-- The parameters of the login are nobody's own. -/
theorem count_own_login {name : String} (login : name ∈ loginParameters) :
    (contributions.filterMap (·.own?)).count name = 0 := by
  rw [List.count_eq_zero]
  intro own
  obtain ⟨c, -, has⟩ := List.mem_filterMap.1 own
  exact not_isParameterOf_login login (Contribution.isParameterOf_of_own? has)

/-- The machines that contribute are the machines that were exported. -/
theorem length_machines (wf : t.WellFormed) :
    (contributions.filter (fun c => decide (c.kind = .virtualMachine))).length =
      (b.machines t).length := by
  have perm := (h.map_element_perm wf).filter
    (fun element => decide (element.kind = ResourceKind.virtualMachine.tag))
  have kinds : contributions.filter (fun c => decide (c.kind = .virtualMachine)) =
      contributions.filter
        (fun c => decide (c.element.kind = ResourceKind.virtualMachine.tag)) := by
    refine List.filter_congr fun c mem => ?_
    rw [(h.made c mem).1]
    exact decide_eq_decide.2 ⟨congrArg _, ResourceKind.tag_injective⟩
  rw [List.filter_map, List.filter_filter] at perm
  have lengths := perm.length_eq
  rw [List.length_map] at lengths
  rw [kinds, Build.machines]
  simpa [Function.comp_def] using lengths

/-- **The last to ask for a parameter says what it is.** -/
theorem get?_of_last {before after : List Contribution} {c : Contribution} {name : String}
    {definition : ParameterDefinition} (split : contributions = before ++ c :: after)
    (given : (name, definition) ∈ c.parameters)
    (later : ∀ other ∈ after, name ∉ other.parameters.map Prod.fst) :
    b.template.parameters.get? name = some definition := by
  have behind : (after.flatMap (·.parameters)).reverse.lookup name = none := by
    rw [List.lookup_eq_none_iff]
    intro entry mem
    obtain ⟨other, listed, asked⟩ := List.mem_flatMap.1 (List.mem_reverse.1 mem)
    rw [bne_iff_ne]
    rintro rfl
    exact later other listed (List.mem_map_of_mem asked)
  have here : c.parameters.reverse.lookup name = some definition := by
    have nodup := h.nodup_map_fst (split ▸ List.mem_append_right _ List.mem_cons_self)
    rw [← List.nodup_reverse, ← List.map_reverse] at nodup
    exact (lookup_eq_some_iff_mem nodup).2 (List.mem_reverse.2 given)
  rw [h.parameters_eq, Contribution.entered, Template.get?_foldl_enterParameter, split,
    List.flatMap_append, List.flatMap_cons, List.reverse_append, List.reverse_append,
    List.lookup_append, List.lookup_append, behind, here]
  rfl

variable (wf : t.WellFormed) (exportable : t.Exportable)
include wf exportable

/-- **Nobody else can use the name of an element's own parameter.** -/
theorem eq_of_own? {c other : Contribution} (mem : c ∈ contributions)
    (mem' : other ∈ contributions) {name name' : String} (has : c.own? = some name)
    (own : other.own? = some name') (of : IsParameterOf c.element.id name') : other = c := by
  have known := (h.exists_mem_iff wf).1 ⟨c, mem, rfl⟩
  have known' := (h.exists_mem_iff wf).1 ⟨other, mem', rfl⟩
  obtain ⟨suffix, hSuffix, -⟩ := Option.map_eq_some_iff.1 has
  obtain ⟨suffix', hSuffix', rfl⟩ := Option.map_eq_some_iff.1 own
  obtain ⟨last, plain, eq⟩ := of
  -- both suffixes are without an underscore, so the scopes are the same
  have scopes := (parameterName_eq_iff
    (ResourceKind.notMem_of_parameterSuffix? hSuffix') plain).1 eq
  have parameters := (Element.hasParameters_iff (h.made c mem).1).2 ⟨suffix, hSuffix⟩
  have parameters' := (Element.hasParameters_iff (h.made other mem').1).2 ⟨suffix', hSuffix'⟩
  exact h.eq_of_element_eq wf mem' mem
    (exportable.scopes _ known'.1 _ known.1 parameters' parameters scopes.1)

theorem nodup_own : (contributions.filterMap (·.own?)).Nodup := by
  rw [List.Nodup, List.pairwise_filterMap]
  have nodup : contributions.Nodup := .of_map _ (h.nodup_map wf)
  refine nodup.pairwise_of_forall_ne fun c mem other mem' ne name has name' own eq => ?_
  subst eq
  exact ne (h.eq_of_own? wf exportable mem' mem own has
    (Contribution.isParameterOf_of_own? own))

/-- **Only parameters of the login are replaced**, once for each machine but the first. -/
theorem count_replaced (name : String) : b.report.replaced.count name =
    if name ∈ loginParameters then (b.machines t).length - 1 else 0 := by
  rw [h.count_replaced_eq, Contribution.count_flatMap_login, h.length_machines wf]
  by_cases login : name ∈ loginParameters
  · rw [if_pos login, if_pos login, count_own_login login, Nat.zero_add]
  · have once := List.nodup_iff_count_le_one.1 (h.nodup_own wf exportable) name
    rw [if_neg login, if_neg login]
    omega

omit wf exportable in
/-- **A template asks for exactly the parameters that its resources refer to.** -/
theorem mem_keys_iff_exists_read {name : String} : name ∈ b.template.parameters.keys ↔
    ∃ r ∈ b.template.resources, ∃ s ∈ r.json.texts, readParameter? s = some name := by
  -- an element that asks for a parameter refers to it in its resource, and the other way round
  constructor
  · intro key
    obtain ⟨c, mem, asked⟩ := h.mem_keys_iff.1 key
    obtain ⟨_, _, isMadeOf, -⟩ := (h.made c mem).2.exists_isMadeOf
    refine ⟨c.resource, h.resources_eq ▸ List.mem_map_of_mem mem, parameterReference name, ?_,
      readParameter?_eq_some_iff.2 rfl⟩
    exact (isMadeOf.evaluated _ (by simp)).2 (.inr (.inl ⟨name, asked, rfl⟩))
  · intro ⟨r, listed, s, text, read⟩
    obtain rfl := readParameter?_eq_some_iff.1 read
    rw [h.resources_eq] at listed
    obtain ⟨c, mem, rfl⟩ := List.mem_map.1 listed
    obtain ⟨_, _, isMadeOf, -⟩ := (h.made c mem).2.exists_isMadeOf
    rcases (isMadeOf.evaluated _ (by simp)).1 text with place | ⟨other, asked, eq⟩ | ⟨_, -, eq⟩
    · exact absurd place (parameterReference_ne_locationExpression name)
    · rw [readParameter?_eq_some_iff.2 eq] at read
      exact h.mem_keys_iff.2 ⟨c, mem, Option.some.inj read ▸ asked⟩
    · exact absurd eq (parameterReference_ne_resourceReference name _ _)

/-- Nobody else asks for an element's own parameter. -/
theorem eq_of_asked {c other : Contribution} (mem : c ∈ contributions)
    (mem' : other ∈ contributions) {name name' : String} (has : c.own? = some name)
    (of : IsParameterOf c.element.id name') (asked : name' ∈ other.parameters.map Prod.fst) :
    other = c ∧ name' = name := by
  rw [(h.made other mem').2.map_fst, List.mem_append, Option.mem_toList] at asked
  rcases asked with own | login
  · obtain rfl := h.eq_of_own? wf exportable mem mem' has own of
    exact ⟨rfl, Option.some.inj (own.symm.trans has)⟩
  · exact absurd of (not_isParameterOf_login (Contribution.mem_of_mem_login login))

/-- The parameter of a template with the name of an element's own is what the element gave. -/
theorem get?_own {c : Contribution} (mem : c ∈ contributions) {name : String}
    (own : c.own? = some name) : ∃ definition,
      b.template.parameters.get? name = some definition ∧ (name, definition) ∈ c.parameters := by
  have of := Contribution.isParameterOf_of_own? own
  have asked : name ∈ c.parameters.map Prod.fst := by
    rw [(h.made c mem).2.map_fst, own]
    exact List.mem_cons_self
  obtain ⟨⟨_, definition⟩, given, rfl⟩ := List.mem_map.1 asked
  obtain ⟨before, after, split⟩ := List.append_of_mem mem
  refine ⟨definition, h.get?_of_last split given fun other later asked' => ?_, given⟩
  -- whoever asks for this name is the same contribution, and there is just one
  have mem' : other ∈ contributions := split ▸ List.mem_append_right _ (.tail _ later)
  obtain ⟨rfl, -⟩ := h.eq_of_asked wf exportable mem mem' own of asked'
  have nodup : contributions.Nodup := .of_map _ (h.nodup_map wf)
  rw [split] at nodup
  exact (List.nodup_cons.1 (List.nodup_append.1 nodup).2.1).1 later

end Build.AssembledFrom

/-- **Whose the parameters of a template are.**  The template asks for exactly the parameters
that its resources refer to.  An exported element of a kind that has parameters has one of its
own, which is what its kind says and has a name that no other such element can use.  All other
parameters are those of the login, which are there if there is a machine, and only these are
replaced, once for each machine but the first. -/
structure Build.OwnsParameters (b : Build) (t : Topology) : Prop where
  mem_keys_iff : ∀ name, name ∈ b.template.parameters.keys ↔
    ∃ r ∈ b.template.resources, ∃ s ∈ r.json.texts, readParameter? s = some name
  own : ∀ element ∈ t.elements, element.id ∈ b.report.exported → element.HasParameters →
    ∃ name ∈ b.template.parameters.keys, IsParameterOf element.id name ∧
      (∀ other ∈ b.template.parameters.keys, IsParameterOf element.id other → other = name) ∧
      ∃ capability given definition, Capability.of? element = some capability ∧
        capability.parameters = .ok given ∧ (name, definition) ∈ given ∧
          b.template.parameters.get? name = some definition
  own_unique : ∀ element ∈ t.elements, ∀ other ∈ t.elements, element.HasParameters →
    other.HasParameters → ∀ name, IsParameterOf element.id name → IsParameterOf other.id name →
      element = other
  own_or_login : ∀ name ∈ b.template.parameters.keys, name ∈ loginParameters ∨
    ∃ element ∈ t.elements, element.id ∈ b.report.exported ∧ element.HasParameters ∧
      IsParameterOf element.id name
  login_iff : ∀ name ∈ loginParameters,
    name ∈ b.template.parameters.keys ↔ b.machines t ≠ []
  count_replaced : ∀ name, b.report.replaced.count name =
    if name ∈ loginParameters then (b.machines t).length - 1 else 0

namespace Topology

variable {t : Topology} {b : Build}

/-- **The parameters are closed and are not merged.** -/
theorem ownsParameters_of_build (reachable : t.Reachable) (built : t.build = .ok (some b)) :
    b.OwnsParameters t := by
  have wf := reachable.wellFormed
  have exportable := wf.exportable_of_build built
  obtain ⟨contributions, h⟩ := exists_contributions built
  constructor
  · exact fun name => h.mem_keys_iff_exists_read
  · intro element known exported has
    obtain ⟨c, mem, rfl⟩ := (h.exists_mem_iff wf).2 ⟨known, exported⟩
    obtain ⟨kindEq, makes⟩ := h.made c mem
    obtain ⟨suffix, hSuffix⟩ := (Element.hasParameters_iff kindEq).1 has
    have own : c.own? = some (parameterName c.element.id suffix) := by
      rw [Contribution.own?, hSuffix, Option.map_some]
    obtain ⟨definition, found, given⟩ := h.get?_own wf exportable mem own
    refine ⟨_, h.mem_keys_iff.2 ⟨c, mem, List.mem_map_of_mem given⟩,
      Contribution.isParameterOf_of_own? own, fun other key of => ?_, .ofKind c.kind c.element,
      c.parameters, definition, ?_, (makes_iff.1 makes).1, given, found⟩
    · obtain ⟨_, mem', asked⟩ := h.mem_keys_iff.1 key
      exact (h.eq_of_asked wf exportable mem mem' own of asked).2
    · rw [Capability.of?, kindEq, ResourceKind.ofTag?_tag, Option.map_some]
  · intro element known other known' has has' name of of'
    obtain ⟨suffix, plain, eq⟩ := of
    obtain ⟨suffix', plain', eq'⟩ := of'
    have scopes := (parameterName_eq_iff plain plain').1 (eq.symm.trans eq')
    exact exportable.scopes element known other known' has has' scopes.1
  · intro name key
    obtain ⟨c, mem, asked⟩ := h.mem_keys_iff.1 key
    obtain ⟨kindEq, makes⟩ := h.made c mem
    obtain ⟨known, exported⟩ := (h.exists_mem_iff wf).1 ⟨c, mem, rfl⟩
    rw [makes.map_fst, List.mem_append, Option.mem_toList] at asked
    rcases asked with own | login
    · obtain ⟨suffix, hSuffix, -⟩ := Option.map_eq_some_iff.1 own
      exact .inr ⟨c.element, known, exported,
        (Element.hasParameters_iff kindEq).2 ⟨suffix, hSuffix⟩,
        Contribution.isParameterOf_of_own? own⟩
    · exact .inl (Contribution.mem_of_mem_login login)
  · intro name login
    rw [h.mem_keys_iff_count_pos, Build.AssembledFrom.count_own_login login, Nat.zero_add,
      Contribution.count_flatMap_login, if_pos login, h.length_machines wf,
      List.length_pos_iff]
  · exact h.count_replaced wf exportable

/-- So it is for a drawing with an element of every kind. -/
theorem exists_ownsParameters_everyKind :
    ∃ b, (run ∅ everyKind).build = .ok (some b) ∧ b.OwnsParameters (run ∅ everyKind) := by
  obtain ⟨b, built⟩ := exists_build_everyKind
  exact ⟨b, built, ownsParameters_of_build ⟨everyKind, rfl⟩ built⟩

end Topology

end CloudCanvas
