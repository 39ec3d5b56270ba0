import CloudCanvas.Proofs.Export.Congruence

/-!
# Annotations are inert

Elements of kinds outside the catalog can be added to a drawing anywhere, links can be drawn
from and to them, and they and all links can be given properties; and every element can be
moved about on the canvas.  None of this changes what is exported.

## Main definitions

* `Topology.place`: an element at another place on the canvas.
* `Edit.Annotates`: the edits that annotate.
* `Topology.Annotating`: one step of annotating a drawing.

The main statement is `Topology.build_of_annotating`.
-/

namespace CloudCanvas

/-- A node at another place on the canvas, if it has the id. -/
def Node.placeAt (id : String) (position : Option Position) (node : Node) : Node :=
  { node with position := if node.id = id then position else node.position }

/-- A group at another place on the canvas, if it has the id. -/
def Group.placeAt (id : String) (position : Option Position) (group : Group) : Group :=
  { group with position := if group.id = id then position else group.position }

/-- Put whatever element has an id at another place on the canvas. -/
def Topology.place (t : Topology) (id : String) (position : Option Position) : Topology :=
  { t with
    nodes := t.nodes.map (Node.placeAt id position)
    groups := t.groups.map (Group.placeAt id position) }

/-- An edit that annotates a drawing: it adds an element of a kind outside the catalog or a
link at one, or changes a property of such an element or of a link. -/
def Edit.Annotates (t : Topology) : Edit → Prop
  | .addNode node => (Element.node node).IsNote
  | .addGroup group => (Element.group group).IsNote
  | .addLink link => ∃ element ∈ t.elements, element.IsNote ∧ link.touches element.id = true
  | .setProperty id _ _ | .removeProperty id _ =>
    ∀ element ∈ t.elements, element.id = id → element.IsNote
  | .remove _ | .removeNode _ | .removeGroup _ | .removeLink _ | .clear | .load _ => False

instance (t : Topology) : (edit : Edit) → Decidable (edit.Annotates t)
  | .addNode node => inferInstanceAs (Decidable (Element.node node).IsNote)
  | .addGroup group => inferInstanceAs (Decidable (Element.group group).IsNote)
  | .addLink link => inferInstanceAs (Decidable
    (∃ element ∈ t.elements, element.IsNote ∧ link.touches element.id = true))
  | .setProperty id _ _ | .removeProperty id _ => inferInstanceAs (Decidable
    (∀ element ∈ t.elements, element.id = id → element.IsNote))
  | .remove _ | .removeNode _ | .removeGroup _ | .removeLink _ | .clear | .load _ =>
    inferInstanceAs (Decidable False)

/-- One step of annotating a drawing. -/
inductive Topology.Annotating (t : Topology) : Topology → Prop
  | edit {edit : Edit} (annotates : edit.Annotates t) : Annotating t (t.apply edit).2
  | place (id : String) (position : Option Position) : Annotating t (t.place id position)

namespace Topology

variable {t t' : Topology} {id : String}

/-! ## Single steps -/

theorem annotated_refl (t : Topology) : t.Annotated t.nodes t where
  nodes := .refl fun node _ => .refl (.node node)
  perm := .refl _
  groups := .refl fun group _ => .refl (.group group)
  links := .refl fun _ _ => ⟨rfl, rfl⟩

theorem annotated_withNode {node : Node} (fresh : node.id ∉ t.ids)
    (outside : (Element.node node).IsNote) :
    t.Annotated (t.withNode node).nodes (t.withNode node) where
  nodes := by
    simp only [withNode, nodes_enterNode]
    refine (Grown.refl fun node _ => .refl (.node node)).concat ⟨outside, ?_⟩
    exact fun used => fresh (mem_ids.2 (.inl used))
  perm := .refl _
  groups := by
    simp only [withNode, groups_enterNode]
    exact .map _ fun group _ => .of_record_eq (by simp)
  links := by
    simp only [withNode, links_enterNode]
    exact .refl fun _ _ => ⟨rfl, rfl⟩

theorem annotated_withGroup {group : Group} (fresh : group.id ∉ t.ids)
    (outside : (Element.group group).IsNote) :
    t.Annotated (t.withGroup group).nodes (t.withGroup group) where
  nodes := by
    simp only [withGroup, nodes_enterGroup]
    exact .refl fun node _ => .refl (.node node)
  perm := .refl _
  groups := by
    simp only [withGroup, groups_enterGroup]
    have listed : t.GroupsGrown t.groups (t.groups.map (Group.listGroup group.parent group.id)) :=
      .map _ fun group _ => .of_record_eq (by simp)
    refine listed.concat ⟨outside, ?_⟩
    exact fun used => fresh (mem_ids.2 (.inl used))
  links := by
    simp only [withGroup, links_enterGroup]
    exact .refl fun _ _ => ⟨rfl, rfl⟩

theorem annotated_withLink {link : Link} {element : Element} (mem : element ∈ t.elements)
    (outside : element.IsNote) (touches : link.touches element.id = true) :
    t.Annotated (t.withLink link).nodes (t.withLink link) where
  nodes := .refl fun node _ => .refl (.node node)
  perm := .refl _
  groups := .refl fun group _ => .refl (.group group)
  links := (Grown.refl fun _ _ => ⟨rfl, rfl⟩).concat ⟨element, mem, outside, touches⟩

/-- A change of properties that an export does not see. -/
theorem annotated_updateProperties {change : Properties → Properties}
    (alike : ∀ element ∈ t.elements, element.id = id → ∀ other, element.SamePlace other →
      other.properties = change element.properties → element.Alike other) :
    t.Annotated (t.updateProperties id change).nodes (t.updateProperties id change) where
  nodes := .map (Node.revise id change) fun node mem => by
    by_cases here : node.id = id
    · rw [Node.revise, if_pos here]
      exact alike _ (node_mem_elements mem) here _ ⟨rfl, rfl, rfl, rfl⟩ rfl
    · rw [Node.revise, if_neg here]
      exact .refl _
  perm := .refl _
  groups := .map (Group.revise id change) fun group mem => by
    by_cases here : group.id = id
    · rw [Group.revise, if_pos here]
      exact alike _ (group_mem_elements mem) here _ ⟨rfl, rfl, rfl, rfl⟩ rfl
    · rw [Group.revise, if_neg here]
      exact .refl _
  links := .map (Link.revise id change) fun link _ =>
    ⟨link.source_revise .., link.target_revise ..⟩

/-- No property of an annotation or of a link is read. -/
theorem annotated_of_isNote
    (outside : ∀ element ∈ t.elements, element.id = id → element.IsNote)
    (change : Properties → Properties) :
    t.Annotated (t.updateProperties id change).nodes (t.updateProperties id change) :=
  annotated_updateProperties fun element mem here _ same _ =>
    .of_isNote (outside element mem here) same

theorem annotated_place (id : String) (position : Option Position) :
    t.Annotated (t.place id position).nodes (t.place id position) where
  nodes := .map _ fun _ _ => .of_properties_eq ⟨rfl, rfl, rfl, rfl⟩ rfl
  perm := .refl _
  groups := .map _ fun _ _ => .of_properties_eq ⟨rfl, rfl, rfl, rfl⟩ rfl
  links := .refl fun _ _ => ⟨rfl, rfl⟩

theorem WellFormed.place (wf : t.WellFormed) (id : String) (position : Option Position) :
    (t.place id position).WellFormed := by
  have moved : WellFormed ⟨t.nodes.map (Node.placeAt id position),
      t.groups.map (Group.placeAt id position), t.links.map fun link => link⟩ := wf.map
    (fun _ => rfl) (fun _ => rfl) (fun _ => rfl) (fun _ => rfl) (fun _ => rfl) (fun _ => rfl)
    (fun _ => rfl) (fun _ => ⟨rfl, rfl⟩) wf.node_noNulls wf.group_noNulls wf.link_noNulls
  rwa [List.map_id'] at moved

/-- An edit that annotates, done or refused, makes an annotated drawing. -/
theorem annotated_apply {edit : Edit} (annotates : edit.Annotates t) :
    t.Annotated (t.apply edit).2.nodes (t.apply edit).2 := by
  have refused := annotated_refl t
  cases edit with
  | addNode node =>
      rw [apply_addNode]
      cases done : t.addNode node with
      | error e => exact refused
      | ok next =>
          obtain ⟨fresh, -, rfl⟩ := addNode_eq_ok_iff.1 done
          exact annotated_withNode fresh annotates
  | addGroup group =>
      rw [apply_addGroup]
      cases done : t.addGroup group with
      | error e => exact refused
      | ok next =>
          obtain ⟨fresh, -, rfl⟩ := addGroup_eq_ok_iff.1 done
          exact annotated_withGroup fresh annotates
  | addLink link =>
      rw [apply_addLink]
      cases done : t.addLink link with
      | error e => exact refused
      | ok next =>
          obtain ⟨-, -, rfl⟩ := addLink_eq_ok_iff.1 done
          obtain ⟨element, mem, outside, touches⟩ := annotates
          exact annotated_withLink mem outside touches
  | setProperty id name value =>
      rw [apply_setProperty, setProperty_eq]
      cases t.properties? id with
      | none => exact refused
      | some _ => exact annotated_of_isNote annotates _
  | removeProperty id name =>
      rw [apply_removeProperty, removeProperty_eq]
      cases t.properties? id with
      | none => exact refused
      | some _ => exact annotated_of_isNote annotates _
  | remove _ | removeNode _ | removeGroup _ | removeLink _ | clear | load _ => exact annotates.elim

/-- One step of annotating keeps a drawing well-formed and annotates it. -/
theorem Annotating.annotated (step : t.Annotating t') : t.Annotated t'.nodes t' := by
  cases step with
  | edit annotates => exact annotated_apply annotates
  | place id position => exact annotated_place id position

theorem Annotating.wellFormed (step : t.Annotating t') (wf : t.WellFormed) : t'.WellFormed := by
  cases step with
  | edit annotates => exact wf.apply _
  | place id position => exact wf.place id position

/-! ## Sequences of steps -/

theorem Annotated.isEmpty_eq_false (h : t.Annotated t'.nodes t') (drawn : t.isEmpty = false) :
    t'.isEmpty = false := by
  have nodes := h.nodes.length_le
  have groups := h.groups.length_le
  rw [Bool.eq_false_iff, ne_eq, isEmpty_iff_length] at drawn ⊢
  simp only [elements, List.length_append, List.length_map] at drawn ⊢
  omega

/-- What is exported of a drawing, without the list of its annotations. -/
def exports (t : Topology) : Except ExportError (Option (Template × BuildReport)) :=
  t.build.map (Option.map fun b => (b.template, b.report.withoutIgnored))

/-- **One step changes nothing that is exported.** -/
theorem Annotated.exports_eq (h : t.Annotated t'.nodes t') (wf : t.WellFormed)
    (wf' : t'.WellFormed) (drawn : t.isEmpty = false) : t.exports = t'.exports := by
  have order : t'.visitOrderBy t'.nodes = t'.visitOrder := rfl
  have visits := h.visits_withoutIgnored wf wf' Draft.start
  rw [order] at visits
  rw [exports, exports, build, build, drawn, h.isEmpty_eq_false drawn]
  rcases map_eq_map_cases visits with ⟨e, refused, refused'⟩ | ⟨draft, draft', done, done', same⟩
  · rw [refused, refused']
  · have seen : (draft.template, draft.report.withoutIgnored) =
        (draft'.template, draft'.report.withoutIgnored) :=
      congrArg (fun draft : Draft => (draft.template, draft.report)) same
    rw [done, done']
    exact congrArg (fun given => Except.ok (some given)) seen

/-- Any number of steps changes nothing that is exported. -/
theorem exports_of_annotating (wf : t.WellFormed) (drawn : t.isEmpty = false)
    (steps : Relation.ReflTransGen Annotating t t') :
    t'.WellFormed ∧ t'.isEmpty = false ∧ t.exports = t'.exports := by
  induction steps with
  | refl => exact ⟨wf, drawn, rfl⟩
  | tail _ step ih =>
      obtain ⟨wf, drawn, before⟩ := ih
      have annotated := step.annotated
      have wf' := step.wellFormed wf
      exact ⟨wf', annotated.isEmpty_eq_false drawn,
        before.trans (annotated.exports_eq wf wf' drawn)⟩

/-- **Annotations are inert**: however a drawing is annotated, its export fails with the same
error, or gives the same template and the same report, but for the list of annotations. -/
theorem build_of_annotating (reachable : t.Reachable) (drawn : t.isEmpty = false)
    (steps : Relation.ReflTransGen Annotating t t') :
    (∃ e, t.build = .error e ∧ t'.build = .error e) ∨
      ∃ b ignored, t.build = .ok (some b) ∧
        t'.build = .ok (some { b with report := { b.report with ignored := ignored } }) := by
  obtain ⟨-, -, same⟩ := exports_of_annotating reachable.wellFormed drawn steps
  rcases map_eq_map_cases same with ⟨e, refused, refused'⟩ | ⟨result, result', built, built', seen⟩
  · exact .inl ⟨e, refused, refused'⟩
  · right
    cases result with
    | none =>
        rw [build_eq_ok_none_iff, drawn] at built
        cases built
    | some b =>
        cases result' with
        | none => cases seen
        | some b' =>
            obtain ⟨template, report⟩ := Prod.mk.inj (Option.some.inj seen)
            refine ⟨b, b'.report.ignored, built, ?_⟩
            rw [built', ← BuildReport.eq_of_withoutIgnored_eq report, template]

/-- So it is for a drawing with an element of every kind, of which the network gets a frame and
the subnet a label, the label is linked to an interface and written on, and a machine is moved. -/
theorem build_of_annotating_everyKind :
    let drawing := run ∅ everyKind
    let framed := (drawing.apply
      (.addGroup ⟨⟨"zone", "boundary", ∅, some "hub", none⟩, [], []⟩)).2
    let labelled := (framed.apply (.addNode ⟨"label", "note", ∅, some "front", none⟩)).2
    let linked := (labelled.apply (.addLink ⟨"l6", "card", "label", ∅⟩)).2
    let written := (linked.apply (.setProperty "label" "name" (.string "card"))).2
    let marked := (written.apply (.setProperty "l3" "primary" (.bool true))).2
    let origin : Option Position := some ⟨.zero false, .zero false⟩
    ∃ b ignored, drawing.build = .ok (some b) ∧ (marked.place "web" origin).build =
      .ok (some { b with report := { b.report with ignored := ignored } }) := by
  intro drawing framed labelled linked written marked origin
  have steps : Relation.ReflTransGen Annotating drawing (marked.place "web" origin) :=
    .tail (.tail (.tail (.tail (.tail (.tail .refl (.edit (by decide +kernel)))
      (.edit (by decide +kernel))) (.edit (by decide +kernel))) (.edit (by decide +kernel)))
        (.edit (by decide +kernel))) (.place "web" origin)
  have drawn : drawing.isEmpty = false := by decide +kernel
  rcases build_of_annotating ⟨everyKind, rfl⟩ drawn steps with ⟨e, refused, -⟩ | same
  · obtain ⟨b, built⟩ := exists_build_everyKind
    rw [built] at refused
    cases refused
  · exact same

end Topology

end CloudCanvas
