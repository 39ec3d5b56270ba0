import CloudCanvas.Proofs.Export.Alike
import CloudCanvas.Proofs.Export.Contributions
import CloudCanvas.Proofs.Grown
import CloudCanvas.Proofs.Topology.Ancestors

/-!
# Drawings that differ in annotations

A drawing can be annotated: new elements of kinds outside the catalog are put anywhere, links
are drawn from or to annotations, and what an export does not read of the elements is changed.
What stands around an element of the catalog, what a network contains and what is linked to an
element stay alike, and the groups stay in one order.

## Main definitions

* `Topology.IsFresh`: an annotation with a new id.
* `Topology.Annotated`: a drawing and what annotations make of it.
* `Topology.visitOrderBy`: the order of the visits, with the nodes in some order.

The main statements are `Annotated.parentOf_cases`, `Annotated.subnets_forall₂`,
`Annotated.linkedOfKind_forall₂` and `Annotated.grown_visitOrder`.
-/

namespace CloudCanvas

/-- Two nodes that an export cannot tell apart. -/
abbrev Node.Alike (node other : Node) : Prop :=
  (Element.node node).Alike (.node other)

/-- Two groups that an export cannot tell apart. -/
abbrev Group.Alike (group other : Group) : Prop :=
  (Element.group group).Alike (.group other)

/-- Groups that differ in what they contain alone are alike. -/
theorem Group.Alike.of_record_eq {group other : Group}
    (same : other.toGroupRecord = group.toGroupRecord) : group.Alike other :=
  .of_properties_eq ⟨rfl, congrArg GroupRecord.id same, congrArg GroupRecord.kind same,
    congrArg GroupRecord.parent same⟩ (congrArg GroupRecord.properties same)

/-- Two links that join the same elements in the same direction. -/
structure Link.SameEnds (link other : Link) : Prop where
  source : other.source = link.source
  target : other.target = link.target

theorem Link.SameEnds.otherEnd? {link other : Link} (same : link.SameEnds other) (id : String) :
    other.otherEnd? id = link.otherEnd? id := by
  rw [Link.otherEnd?, Link.otherEnd?, same.source, same.target]

namespace Link.Joins

variable {link : Link} {id other note : String} (joins : link.Joins id other)
include joins

theorem mem_of_ends {ids : List String} (ends : link.source ∈ ids ∧ link.target ∈ ids) :
    other ∈ ids := by
  rcases joins with ⟨-, rfl⟩ | ⟨rfl, -⟩
  · exact ends.2
  · exact ends.1

/-- A link at two elements joins the one to the other. -/
theorem eq_of_touches (touches : link.touches note = true) (ne : note ≠ id) :
    other = note := by
  rw [Link.touches, Bool.or_eq_true, beq_iff_eq, beq_iff_eq] at touches
  rcases joins with ⟨rfl, rfl⟩ | ⟨rfl, rfl⟩
  · exact touches.resolve_left ne.symm
  · exact touches.resolve_right ne.symm

end Link.Joins

namespace Topology

/-- An annotation with an id that no element of a drawing has. -/
def IsFresh (t : Topology) (element : Element) : Prop :=
  element.IsNote ∧ element.id ∉ t.elementIds

/-- A row of groups that has grown by annotations that are not in a drawing. -/
abbrev GroupsGrown (t : Topology) (groups groups' : List Group) : Prop :=
  Grown Group.Alike (fun group => t.IsFresh (.group group)) groups groups'

/-- **A drawing and what annotations make of it**, the nodes of the latter in the order of a
row: every element is there as far as an export reads it, whatever else is there is an
annotation, and new links are links of annotations. -/
structure Annotated (t : Topology) (row : List Node) (t' : Topology) : Prop where
  nodes : Grown Node.Alike (fun node => t.IsFresh (.node node)) t.nodes row
  perm : row.Perm t'.nodes
  groups : t.GroupsGrown t.groups t'.groups
  links : Grown Link.SameEnds (fun link => ∃ element ∈ t'.elements,
    element.IsNote ∧ link.touches element.id = true) t.links t'.links

/-- The elements in the order of the visits, but for the nodes, which stand in the order of a
row. -/
def visitOrderBy (t : Topology) (row : List Node) : List Element :=
  (t.topLevelGroups.flatMap t.outline).map .group ++ row.map .node

/-- Whether an id is that of an element of a kind. -/
def hasKind (t : Topology) (kind : ResourceKind) (id : String) : Bool :=
  (t.element? id).any (·.kind == kind.tag)

/-- What is linked to an element can be selected by its kind before it is looked up. -/
theorem linkedOfKind_eq (t : Topology) (id : String) (kind : ResourceKind) :
    t.linkedOfKind id kind = (t.links.filterMap
      (fun link => (link.otherEnd? id).filter (t.hasKind kind))).eraseDups.filterMap
        t.element? := by
  rw [← List.filter_filterMap, ← filter_eraseDups, List.filterMap_filter, linkedOfKind, linked,
    List.filter_filterMap]
  refine List.filterMap_congr fun other _ => ?_
  rw [hasKind]
  cases t.element? other with
  | none => rfl
  | some element => simp [Option.filter]

namespace Annotated

variable {t t' : Topology} {row : List Node} (h : t.Annotated row t') {element other : Element}
include h

/-! ## Elements -/

theorem exists_alike (mem : element ∈ t.elements) :
    ∃ other ∈ t'.elements, element.Alike other := by
  rcases mem_elements.1 mem with ⟨group, known, rfl⟩ | ⟨node, known, rfl⟩
  · obtain ⟨group', listed, alike⟩ := h.groups.exists_mem known
    exact ⟨.group group', group_mem_elements listed, alike⟩
  · obtain ⟨node', listed, alike⟩ := h.nodes.exists_mem known
    exact ⟨.node node', node_mem_elements (h.perm.mem_iff.1 listed), alike⟩

/-- Elements with one id are alike. -/
theorem alike_of_id (wf' : t'.WellFormed) (mem : element ∈ t.elements)
    (mem' : other ∈ t'.elements) (id : other.id = element.id) : element.Alike other := by
  obtain ⟨found, listed, alike⟩ := h.exists_alike mem
  rwa [wf'.element_ext mem' listed (id.trans alike.id.symm)]

variable (wf : t.WellFormed) (wf' : t'.WellFormed)
include wf wf'

theorem element?_rel {id : String} (mem : id ∈ t.elementIds) :
    Option.Rel Element.Alike (t.element? id) (t'.element? id) := by
  obtain ⟨element, known, rfl⟩ := mem_elementIds_iff_element.1 mem
  obtain ⟨other, listed, alike⟩ := h.exists_alike known
  rw [wf.element?_eq_some_iff.2 ⟨known, rfl⟩, wf'.element?_eq_some_iff.2 ⟨listed, alike.id⟩]
  exact .some alike

/-! ## What stands around an element -/

/-- **The group around an element stays.** -/
theorem parentOf_cases (mem : element ∈ t.elements) (alike : element.Alike other) :
    (t.parentOf element = none ∧ t'.parentOf other = none) ∨
      ∃ group ∈ t.groups, ∃ group' ∈ t'.groups, group.Alike group' ∧
        t.parentOf element = some group ∧ t'.parentOf other = some group' := by
  rcases wf.parent_cases mem with free | ⟨group, known, inside⟩
  · exact .inl ⟨by rw [parentOf, free]; rfl, by rw [parentOf, alike.parent, free]; rfl⟩
  · obtain ⟨group', listed, alike'⟩ := h.groups.exists_mem known
    have id : group'.id = group.id := alike'.id
    have inside' : other.parent = some group'.id := by rw [alike.parent, inside, id]
    exact .inr ⟨group, known, group', listed, alike',
      wf.parentOf_eq_some_iff.2 ⟨known, inside⟩, wf'.parentOf_eq_some_iff.2 ⟨listed, inside'⟩⟩

/-- The group of a kind around an element stays, with its content. -/
theorem parentOf_filter_cases (mem : element ∈ t.elements) (alike : element.Alike other)
    (kind : ResourceKind) :
    ((t.parentOf element).filter (·.kind == kind.tag) = none ∧
      (t'.parentOf other).filter (·.kind == kind.tag) = none) ∨
    ∃ group ∈ t.groups, ∃ group' ∈ t'.groups, group.Alike group' ∧
      (Element.group group).SameContent (.group group') ∧
        (t.parentOf element).filter (·.kind == kind.tag) = some group ∧
          (t'.parentOf other).filter (·.kind == kind.tag) = some group' := by
  rcases h.parentOf_cases wf wf' mem alike with
    ⟨free, free'⟩ | ⟨group, known, group', listed, alike', around, around'⟩
  · exact .inl ⟨by rw [free]; rfl, by rw [free']; rfl⟩
  · have same : group'.kind = group.kind := alike'.kind
    rw [around, around']
    by_cases ofKind : group.kind = kind.tag
    · exact .inr ⟨group, known, group', listed, alike', alike'.content kind ofKind,
        by simp [Option.filter, ofKind], by simp [Option.filter, same, ofKind]⟩
    · exact .inl ⟨by simp [Option.filter, ofKind], by simp [Option.filter, same, ofKind]⟩

/-- Whether a group is exported by the one around it stays. -/
theorem isDelegated_eq {group group' : Group} (mem : group ∈ t.groups)
    (alike : group.Alike group') : t'.isDelegated group' = t.isDelegated group := by
  have kind : group'.kind = group.kind := alike.kind
  rw [isDelegated, isDelegated, kind]
  cases groupRole group.kind with
  | standalone => rfl
  | nestedOnly within =>
      rcases h.parentOf_cases wf wf' (group_mem_elements mem) alike with
        ⟨free, free'⟩ | ⟨outer, -, outer', -, alike', around, around'⟩
      · simp only [free, free']
      · have kind : outer'.kind = outer.kind := alike'.kind
        simp only [around, around', kind]

/-! ## What a network contains -/

/-- **A network contains the same subnets, in the same order.** -/
theorem subnets_forall₂ {network network' : Group} (mem : network ∈ t.groups)
    (mem' : network' ∈ t'.groups) (id : network'.id = network.id) :
    List.Forall₂ (fun subnet subnet' => (Element.group subnet).SameContent (.group subnet'))
      (VirtualNetwork.subnets t network) (VirtualNetwork.subnets t' network') := by
  rw [VirtualNetwork.subnets_eq wf mem, VirtualNetwork.subnets_eq wf' mem', subnetsIn, subnetsIn,
    id]
  have selected := h.groups.forall₂_filter (p := fun group =>
    group.parent == some network.id && group.kind == ResourceKind.subnet.tag) ?_ ?_
  · apply selected.imp
    intro group group' both
    have kind : group.kind = ResourceKind.subnet.tag := by
      simpa using (Bool.and_eq_true_iff.1 both.2).2
    exact both.1.content .subnet kind
  · intro group group' alike
    have parent : group'.parent = group.parent := alike.parent
    have kind : group'.kind = group.kind := alike.kind
    rw [parent, kind]
  · intro group fresh
    have kind : group.kind ≠ ResourceKind.subnet.tag := fresh.1 .subnet
    simp [kind]

/-! ## What is linked to an element -/

theorem hasKind_eq {id : String} (mem : id ∈ t.elementIds) (kind : ResourceKind) :
    t'.hasKind kind id = t.hasKind kind id := by
  have same := h.element?_rel wf wf' mem
  rw [hasKind, hasKind]
  generalize t.element? id = found at same
  generalize t'.element? id = found' at same
  cases same with
  | none => rfl
  | some alike => simp [alike.kind]

/-- **What is linked to an element stays, in the same order.** -/
theorem linkedOfKind_forall₂ (mem : element ∈ t.elements) (known : ¬ element.IsNote)
    (kind : ResourceKind) : List.Forall₂ Element.SameContent
      (t.linkedOfKind element.id kind) (t'.linkedOfKind element.id kind) := by
  have ends :
      t'.links.filterMap (fun link => (link.otherEnd? element.id).filter (t'.hasKind kind)) =
        t.links.filterMap (fun link => (link.otherEnd? element.id).filter (t.hasKind kind)) := by
    refine h.links.filterMap_eq ?_ ?_
    · intro link listed link' same
      rw [same.otherEnd?]
      cases joined : link.otherEnd? element.id with
      | none => rfl
      | some id =>
          have joins := Link.otherEnd?_eq_some_iff.1 joined
          have there := joins.mem_of_ends (wf.link_ends link listed)
          rw [Option.filter, Option.filter, h.hasKind_eq wf wf' there]
    · intro link ⟨note, listed, outside, touches⟩
      have ne : note.id ≠ element.id := by
        intro same
        have alike := h.alike_of_id wf' mem listed same
        exact known (alike.isNote_iff.1 outside)
      rw [Option.filter_eq_none_iff]
      intro id joined
      obtain rfl := (Link.otherEnd?_eq_some_iff.1 joined).eq_of_touches touches ne
      have kindNe := outside kind
      simp [hasKind, wf'.element?_eq_some_iff.2 ⟨listed, rfl⟩, kindNe]
  rw [linkedOfKind_eq, linkedOfKind_eq, ends]
  refine List.rel_filterMap (R := fun id id' =>
    Option.Rel Element.SameContent (t.element? id) (t'.element? id')) (fun _ _ same => same)
      (List.forall₂_same.2 fun id selected => ?_)
  -- whatever is selected is an element of the kind
  obtain ⟨link, listed, joined⟩ := List.mem_filterMap.1 (List.mem_eraseDups.1 selected)
  obtain ⟨joined, ofKind⟩ := Option.filter_eq_some_iff.1 joined
  have there := (Link.otherEnd?_eq_some_iff.1 joined).mem_of_ends (wf.link_ends link listed)
  have same := h.element?_rel wf wf' there
  rw [hasKind] at ofKind
  generalize t.element? id = found at same ofKind
  generalize t'.element? id = found' at same
  cases same with
  | none => exact .none
  | some alike => exact .some (alike.content kind (by simpa using ofKind))

/-! ## The order of the visits -/

omit wf wf' in
/-- The groups that stand in some place have grown. -/
theorem groupsGrown_filter (p : Option String → Bool) :
    t.GroupsGrown (t.groups.filter (p ·.parent)) (t'.groups.filter (p ·.parent)) := by
  refine h.groups.filter fun group group' alike => ?_
  have parent : group'.parent = group.parent := alike.parent
  rw [parent]

omit wf' in
/-- A pre-order in the new drawing is one of the old drawing that has grown. -/
theorem exists_preOrder {groups groups' order' : List Group} (pre : t'.PreOrder groups' order')
    (grown : t.GroupsGrown groups groups') :
    ∃ order, t.PreOrder groups order ∧ t.GroupsGrown order order' := by
  induction pre generalizing groups with
  | nil =>
      cases grown
      exact ⟨[], .nil, .nil⟩
  | @cons group' siblings' inside' behind' _ _ ihInner ihOuter =>
      have inside := h.groupsGrown_filter (· == some group'.id)
      cases grown with
      | @keep group _ siblings _ alike rest =>
          have id : group'.id = group.id := alike.id
          have grown : t.GroupsGrown (t.subgroups group) (t'.subgroups group') := by
            simpa [subgroups, id] using inside
          obtain ⟨inner, preInner, grownInner⟩ := ihInner grown
          obtain ⟨outer, preOuter, grownOuter⟩ := ihOuter rest
          exact ⟨group :: (inner ++ outer), .cons preInner preOuter,
            .keep alike (grownInner.append grownOuter)⟩
      | add fresh rest =>
          -- nothing of the old drawing is inside a new group
          have absent : group'.id ∉ t.groups.map (·.id) := by
            intro used
            exact fresh.2 (List.mem_append_right _ used)
          have none := List.map_eq_nil_iff.1 (wf.groupIdsIn_eq_nil absent)
          rw [none] at inside
          obtain ⟨inner, preInner, grownInner⟩ := ihInner inside
          obtain ⟨outer, preOuter, grownOuter⟩ := ihOuter rest
          cases preInner
          exact ⟨outer, preOuter, .add fresh (by simpa using grownInner.append grownOuter)⟩

/-- **The visits stay in their order.** -/
theorem grown_visitOrder :
    Grown Element.Alike t.IsFresh t.visitOrder (t'.visitOrderBy row) := by
  have roots : t.GroupsGrown t.topLevelGroups t'.topLevelGroups := h.groupsGrown_filter (·.isNone)
  obtain ⟨order, pre, grown⟩ := h.exists_preOrder wf wf'.preOrder_outlines roots
  have groups : Grown Element.Alike t.IsFresh (order.map .group)
      ((t'.topLevelGroups.flatMap t'.outline).map .group) :=
    grown.map_map (fun _ _ alike => alike) fun _ fresh => fresh
  have nodes : Grown Element.Alike t.IsFresh (t.nodes.map .node) (row.map .node) :=
    h.nodes.map_map (fun _ _ alike => alike) fun _ fresh => fresh
  rw [visitOrder, wf.preOrder_outlines.unique pre]
  exact groups.append nodes

omit wf in
/-- Every element is visited once, whatever the order of the nodes. -/
theorem visitOrderBy_perm : (t'.visitOrderBy row).Perm t'.elements :=
  (wf'.outlines_perm.map _).append (h.perm.map _)

end Annotated

end Topology

end CloudCanvas
