import CloudCanvas.Proofs.Export.Annotations

/-!
# Properties that are read as texts

A property that the kind of an element reads as a text must be one, or the drawing is not
exported.  The name is the exception: a name that is no text is taken for a missing one.

## Main definitions

* `ResourceKind.textProperties`: the properties that each kind reads as texts.

The main statements are `Topology.build_eq_of_name` and `Topology.exists_error_iff_of_notText`.
-/

namespace CloudCanvas

/-- The properties that each kind reads as texts. -/
def ResourceKind.textProperties : ResourceKind → List String
  | .virtualNetwork | .subnet => ["name", "addressPrefix"]
  | .networkInterface | .webApp => ["name"]
  | .publicIp => ["name", "allocation", "sku"]
  | .virtualMachine =>
    ["name", "vmSize", "adminUsername", "imagePublisher", "imageOffer", "imageSku"]
  | .storageAccount | .appServicePlan => ["name", "sku"]

namespace Element

variable {element : Element} {name : String} {value : Value}

theorem OneOfOrAbsent.textOrAbsent {texts : List String} (h : element.OneOfOrAbsent name texts) :
    element.TextOrAbsent name := by
  intro value given
  obtain ⟨text, -, eq⟩ := h value given
  exact ⟨text, eq⟩

/-- A property that is there and no text. -/
theorem not_textOrAbsent (given : element.properties.get? name = some value)
    (notText : value.string? = none) : ¬ element.TextOrAbsent name := by
  intro text
  obtain ⟨text, rfl⟩ := text value given
  cases notText

end Element

namespace Topology

variable {t : Topology} {element : Element} {kind : ResourceKind} {name : String}

/-! ## All properties but the name -/

/-- The rule of a kind demands that what it reads as a text is one. -/
theorem NodeRule.textOrAbsent {node : Node} (rule : t.NodeRule node kind)
    (read : name ∈ kind.textProperties) (ne : name ≠ "name") :
    (Element.node node).TextOrAbsent name := by
  cases kind with
  | virtualNetwork | subnet => exact rule.elim
  | networkInterface | webApp =>
      exact absurd (List.mem_singleton.1 read) ne
  | publicIp =>
      simp [ResourceKind.textProperties, ne] at read
      rcases read with rfl | rfl
      · exact rule.1.textOrAbsent
      · exact rule.2
  | virtualMachine =>
      exact rule.texts name ((List.mem_cons.1 read).resolve_left ne)
  | storageAccount =>
      simp [ResourceKind.textProperties, ne] at read
      exact read ▸ rule.1.textOrAbsent
  | appServicePlan =>
      simp [ResourceKind.textProperties, ne] at read
      exact read ▸ rule

/-- A subnet is at some place among the subnets of its network. -/
theorem textOrAbsent_subnet (exportable : t.Exportable) {subnet : Group}
    (mem : subnet ∈ t.groups) (ofKind : subnet.kind = ResourceKind.subnet.tag) :
    (Element.group subnet).TextOrAbsent "addressPrefix" := by
  obtain ⟨network, known, inside, outer⟩ := exportable.groups subnet mem .subnet ofKind
  have rule : t.NetworkRule network := exportable.groups network known .virtualNetwork outer
  have listed : subnet ∈ t.subnetsIn network := by
    have parent : subnet.parent = some network.id := inside
    simp [subnetsIn, mem, parent, ofKind]
  obtain ⟨ordinal, found⟩ := List.mem_iff_getElem?.1 listed
  intro value given
  have given : subnet.properties.get? "addressPrefix" = some value := given
  rcases rule.ranges ordinal subnet found with ⟨text, eq⟩ | ⟨absent, -⟩
  · exact ⟨text, Option.some.inj (given.symm.trans eq)⟩
  · rw [absent] at given
    cases given

/-- **What is read as a text is one, or the drawing is not exported**, apart from the name. -/
theorem textOrAbsent_of_exportable (exportable : t.Exportable) (mem : element ∈ t.elements)
    (ofKind : element.kind = kind.tag) (read : name ∈ kind.textProperties) (ne : name ≠ "name") :
    element.TextOrAbsent name := by
  rcases mem_elements.1 mem with ⟨group, known, rfl⟩ | ⟨node, known, rfl⟩
  · have rule := exportable.groups group known kind ofKind
    cases kind with
    | virtualNetwork =>
        obtain rfl := List.mem_singleton.1 ((List.mem_cons.1 read).resolve_left ne)
        exact rule.addressPrefix
    | subnet =>
        obtain rfl := List.mem_singleton.1 ((List.mem_cons.1 read).resolve_left ne)
        exact textOrAbsent_subnet exportable known ofKind
    | _ => exact rule.elim
  · exact (exportable.nodes node known kind ofKind).textOrAbsent read ne

/-! ## The name -/

/-- **A name that is no text is passed over**: the drawing is exported as if it were not
there. -/
theorem WellFormed.build_eq_of_name (wf : t.WellFormed) (mem : element ∈ t.elements)
    {value : Value} (given : element.properties.get? "name" = some value)
    (notText : value.string? = none) :
    t.build = (t.updateProperties element.id (·.erase "name")).build := by
  have annotated : t.Annotated (t.updateProperties element.id (·.erase "name")).nodes
      (t.updateProperties element.id (·.erase "name")) := by
    apply annotated_updateProperties
    intro old known here other same properties
    obtain rfl := wf.element_ext known mem here
    exact .of_erase_name given notText same properties
  have wf' : (t.updateProperties element.id (·.erase "name")).WellFormed :=
    wf.updateProperties fun _ values => values.erase "name"
  exact annotated.build_eq wf wf'
    (by simp [elements, nodes_updateProperties, groups_updateProperties])

/-! ## All that is read as a text -/

/-- **A property that is read as a text and is none** keeps a drawing from being exported,
unless it is a name: that keeps nothing from being exported that could be without it. -/
theorem exists_error_iff_of_notText (reachable : t.Reachable) (mem : element ∈ t.elements)
    (ofKind : element.kind = kind.tag) (read : name ∈ kind.textProperties) {value : Value}
    (given : element.properties.get? name = some value) (notText : value.string? = none) :
    (∃ e, t.build = .error e) ↔ name ≠ "name" ∨
      ∃ e, (t.updateProperties element.id (·.erase "name")).build = .error e := by
  have wf := reachable.wellFormed
  by_cases same : name = "name"
  · subst same
    rw [wf.build_eq_of_name mem given notText]
    simp
  · refine iff_of_true ?_ (.inl same)
    cases built : t.build with
    | error e => exact ⟨e, rfl⟩
    | ok result =>
        cases result with
        | none =>
            rw [build_eq_ok_none_iff, isEmpty_iff_length, List.length_eq_zero_iff] at built
            rw [built] at mem
            cases mem
        | some b =>
            have text := textOrAbsent_of_exportable (wf.exportable_of_build built) mem ofKind
              read same
            exact absurd text (Element.not_textOrAbsent given notText)

/-- So it is for a subnet whose range is a truth value. -/
theorem exists_error_of_bool_range :
    ∃ e, (run ∅ (everyKind ++ [.setProperty "front" "addressPrefix" (.bool true)])).build =
      .error e := by
  let front : Group := ⟨⟨"front", "subnet", .ofList [("addressPrefix", .bool true)], some "hub",
    none⟩, [], ["card", "spare"]⟩
  let drawing := run ∅ (everyKind ++ [.setProperty "front" "addressPrefix" (.bool true)])
  have mem : .group front ∈ drawing.elements := by decide +kernel
  have given : (Element.group front).properties.get? "addressPrefix" = some (.bool true) := by
    decide
  have ofKind : (Element.group front).kind = ResourceKind.subnet.tag := rfl
  exact (exists_error_iff_of_notText ⟨_, rfl⟩ mem ofKind (by decide) given rfl).2
    (.inl (by decide))

/-- A public address whose name is a number is exported all the same. -/
theorem exists_build_of_number_name :
    let name : Value := .number (.integer 5 (by decide))
    let ip : Node := ⟨"a", ResourceKind.publicIp.tag, .ofList [("name", name)], none, none⟩
    let t := run ∅ [.addNode ip]
    t.Reachable ∧ .node ip ∈ t.elements ∧ "name" ∈ ResourceKind.publicIp.textProperties ∧
      (Element.node ip).properties.get? "name" = some name ∧ name.string? = none ∧
        ¬ ∃ e, t.build = .error e := by
  intro name ip t
  have reachable : t.Reachable := ⟨_, rfl⟩
  obtain ⟨b, built⟩ := exists_build_of_visits reachable (by decide +kernel) (by decide +kernel)
  refine ⟨reachable, by decide +kernel, by decide, by decide, rfl, ?_⟩
  rintro ⟨e, refused⟩
  rw [built] at refused
  cases refused

end Topology

end CloudCanvas
