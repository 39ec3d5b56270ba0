import CloudCanvas.Proofs.Topology.Links
import CloudCanvas.Proofs.Topology.Outline
import CloudCanvas.Proofs.Topology.Removal

/-!
# The groups around an element

The group directly around an element stands before it, so facts about all elements can be
proved from the outside in.  The chain of groups around an element is that group and the
chain around it, and what a group contains is what has it in its chain.

The main statements are `WellFormed.element_induction`, `WellFormed.ancestorsOf_cons` and
`WellFormed.mem_contentIds_iff_ancestor`.
-/

namespace CloudCanvas

namespace Topology

variable {t : Topology} {element : Element} {outer : Group}

theorem mem_elementIds_iff_element {id : String} :
    id ∈ t.elementIds ↔ ∃ element ∈ t.elements, element.id = id := by
  rw [mem_elementIds]
  constructor
  · rintro (⟨node, mem, rfl⟩ | ⟨group, mem, rfl⟩)
    · exact ⟨.node node, node_mem_elements mem, rfl⟩
    · exact ⟨.group group, group_mem_elements mem, rfl⟩
  · rintro ⟨element, mem, rfl⟩
    rcases mem_elements.1 mem with ⟨group, hg, rfl⟩ | ⟨node, hn, rfl⟩
    · exact .inr ⟨group, hg, rfl⟩
    · exact .inl ⟨node, hn, rfl⟩

/-- What is not an element stands in no group. -/
theorem ancestorsOf_eq_nil {id : String} (absent : id ∉ t.elementIds) : t.ancestorsOf id = [] := by
  have none : t.element? id = none := by
    rwa [← Option.not_isSome_iff_eq_none, isSome_element?_iff]
  simp [ancestorsOf, none]

/-! ## From the outside in -/

namespace WellFormed

variable (wf : t.WellFormed)
include wf

/-- An element stands at the top level or in a group of the drawing. -/
theorem parent_cases (mem : element ∈ t.elements) :
    element.parent = none ∨ ∃ outer ∈ t.groups, element.parent = some outer.id := by
  cases parent : element.parent with
  | none => exact .inl rfl
  | some id =>
      refine .inr ?_
      simp only [Option.some_inj, eq_comm (a := id)]
      rcases mem_elements.1 mem with ⟨group, hg, rfl⟩ | ⟨node, hn, rfl⟩
      · exact wf.group_parent hg parent
      · exact List.mem_map.1 (wf.node_group node hn id parent)

/-- **Induction from the outside in**: what holds at the top level, and of an element if it
holds of the group directly around it, holds of every element. -/
theorem element_induction {motive : Element → Prop}
    (root : ∀ element ∈ t.elements, element.parent = none → motive element)
    (inside : ∀ element ∈ t.elements, ∀ outer ∈ t.groups, element.parent = some outer.id →
      motive (.group outer) → motive element)
    (mem : element ∈ t.elements) : motive element := by
  have step : ∀ element ∈ t.elements, (∀ outer ∈ t.groups, element.parent = some outer.id →
      motive (.group outer)) → motive element := by
    intro element mem around
    rcases wf.parent_cases mem with top | ⟨outer, ho, parent⟩
    · exact root element mem top
    · exact inside element mem outer ho parent (around outer ho parent)
  -- the groups first, by their places: the group around a group stands before it
  have groups : ∀ group ∈ t.groups, motive (.group group) := by
    intro group hg
    induction place : t.groups.idxOf group using Nat.strongRecOn generalizing group with
    | ind n ih =>
        refine step _ (group_mem_elements hg) fun outer ho parent => ?_
        exact ih _ (place ▸ wf.idxOf_lt_of_parent ho hg parent) outer ho rfl
  exact step element mem fun outer ho _ => groups outer ho

/-! ## The chain of groups around an element -/

theorem ancestorsOf_root (mem : element ∈ t.elements) (top : element.parent = none) :
    t.ancestorsOf element.id = [] := by
  simp [ancestorsOf, wf.element?_eq_some_iff.2 ⟨mem, rfl⟩, top]

/-- The walk outwards from a group does not depend on groups that stand behind it. -/
private theorem climb_eq (ho : outer ∈ t.groups) {unseen : List Group}
    (nodup : (unseen.map (·.id)).Nodup) (known : ∀ group ∈ unseen, group ∈ t.groups)
    (ahead : ∀ group ∈ t.groups, t.groups.idxOf group ≤ t.groups.idxOf outer → group ∈ unseen) :
    climb unseen outer.id = outer :: t.ancestorsOf outer.id := by
  induction place : t.groups.idxOf outer using Nat.strongRecOn generalizing outer unseen with
  | ind n ih =>
      have found : findGroup? unseen outer.id = some outer := by
        cases eq : findGroup? unseen outer.id with
        | none => simpa using List.find?_eq_none.1 eq outer (ahead outer ho (Nat.le_refl _))
        | some other =>
            have same := List.find?_some eq
            rw [wf.group_ext (known other (List.mem_of_find?_eq_some eq)) ho (by simpa using same)]
      have element : t.element? outer.id = some (.group outer) := wf.element?_group ho
      rw [climb]
      split
      · simp_all
      rename_i group eq
      obtain rfl : group = outer := Option.some.inj (eq.symm.trans found)
      cases parent : group.parent with
      | none => simp [ancestorsOf, element, Element.parent, parent]
      | some id =>
          obtain ⟨around, hAround, rfl⟩ := wf.group_parent ho parent
          have before := wf.idxOf_lt_of_parent hAround ho parent
          have everything := ih _ (place ▸ before) hAround wf.groupIds_nodup
            (fun _ mem => mem) (fun _ mem _ => mem) rfl
          have fewer : climb (withoutGroup unseen group.id) around.id =
              around :: t.ancestorsOf around.id := by
            refine ih _ (place ▸ before) hAround (nodup_withoutGroup nodup)
              (fun other mem => known other (List.mem_of_mem_eraseP mem)) ?_ rfl
            intro other mem le
            rw [withoutGroup_eq_filter nodup, List.mem_filter]
            have ne : other ≠ group := by
              rintro rfl
              omega
            refine ⟨ahead other mem (by omega), ?_⟩
            simpa using fun same => ne (wf.group_ext mem ho same)
          simp only [ancestorsOf, element, Option.bind_some, Element.parent, parent, fewer,
            everything]

/-- **The chain around an element** is the group directly around it and the chain around that
group. -/
theorem ancestorsOf_cons (mem : element ∈ t.elements) (ho : outer ∈ t.groups)
    (parent : element.parent = some outer.id) :
    t.ancestorsOf element.id = outer :: t.ancestorsOf outer.id := by
  have climbed := wf.climb_eq ho wf.groupIds_nodup (fun _ mem => mem) (fun _ mem _ => mem)
  simp [ancestorsOf, wf.element?_eq_some_iff.2 ⟨mem, rfl⟩, parent, climbed]

/-- The chain around an element has groups of the drawing only. -/
theorem mem_groups_of_mem_ancestorsOf {id : String} (mem : outer ∈ t.ancestorsOf id) :
    outer ∈ t.groups := by
  by_cases listed : id ∈ t.elementIds
  · obtain ⟨element, known, rfl⟩ := mem_elementIds_iff_element.1 listed
    refine wf.element_induction (motive := fun element =>
      outer ∈ t.ancestorsOf element.id → outer ∈ t.groups) ?_ ?_ known mem
    · intro element known top mem
      simp [wf.ancestorsOf_root known top] at mem
    · intro element known around hAround parent ih mem
      rw [wf.ancestorsOf_cons known hAround parent] at mem
      rcases List.mem_cons.1 mem with rfl | mem
      · exact hAround
      · exact ih mem
  · simp [ancestorsOf_eq_nil listed] at mem

/-! ## What a group contains -/

/-- What is in the contents of a group is the group or lies directly in a group of the
contents. -/
private theorem mem_contentIds_iff_parent {group : Group} (hg : group ∈ t.groups)
    (mem : element ∈ t.elements) : element.id ∈ t.contentIds group.id ↔ element.id = group.id ∨
      ∃ outer ∈ t.groups, element.parent = some outer.id ∧
        outer.id ∈ t.contentIds group.id := by
  have around : ∀ outer, outer ∈ t.contents group.id ↔
      outer ∈ t.groups ∧ outer.id ∈ t.contentIds group.id := fun outer =>
    ⟨fun h => ⟨(mem_contents_iff.1 h).mem,
      (wf.group_mem_contentIds_iff (mem_contents_iff.1 h).mem).2 h⟩,
      fun h => (wf.group_mem_contentIds_iff h.1).1 h.2⟩
  rcases mem_elements.1 mem with ⟨inner, hi, rfl⟩ | ⟨node, hn, rfl⟩
  · rw [Element.id, wf.group_mem_contentIds_iff hi]
    constructor
    · intro inside
      by_cases same : inner.id = group.id
      · exact .inl same
      · obtain ⟨outer, ho, parent⟩ := wf.parent_of_mem_contents inside same
        obtain ⟨known, listed⟩ := (around outer).1 ho
        exact .inr ⟨outer, known, parent, listed⟩
    · rintro (same | ⟨outer, ho, parent, listed⟩)
      · rw [wf.group_ext hi hg same]
        exact mem_contents_self hg
      · exact wf.mem_contents_of_parent ((around outer).2 ⟨ho, listed⟩) hi parent
  · rw [Element.id, wf.node_mem_contentIds_iff hn, or_iff_right (wf.node_ne_group hn hg)]
    constructor
    · intro ⟨outer, ho, parent⟩
      obtain ⟨known, listed⟩ := (around outer).1 ho
      exact ⟨outer, known, parent, listed⟩
    · intro ⟨outer, ho, parent, listed⟩
      exact ⟨outer, (around outer).2 ⟨ho, listed⟩, parent⟩

/-- **A group contains itself and what has it in the chain around it.** -/
theorem mem_contentIds_iff_ancestor {group : Group} (hg : group ∈ t.groups)
    (mem : element ∈ t.elements) : element.id ∈ t.contentIds group.id ↔
      element.id = group.id ∨ group ∈ t.ancestorsOf element.id := by
  refine wf.element_induction (motive := fun element => element.id ∈ t.contentIds group.id ↔
    element.id = group.id ∨ group ∈ t.ancestorsOf element.id) ?_ ?_ mem
  · intro element mem top
    rw [wf.mem_contentIds_iff_parent hg mem, wf.ancestorsOf_root mem top]
    simp [top]
  · intro element mem outer ho parent around
    have ih : outer.id ∈ t.contentIds group.id ↔
        outer.id = group.id ∨ group ∈ t.ancestorsOf outer.id := around
    have chain : group ∈ t.ancestorsOf element.id ↔
        outer.id = group.id ∨ group ∈ t.ancestorsOf outer.id := by
      rw [wf.ancestorsOf_cons mem ho parent, List.mem_cons]
      exact or_congr_left ⟨fun eq => eq ▸ rfl, fun same => (wf.group_ext ho hg same).symm⟩
    rw [wf.mem_contentIds_iff_parent hg mem, chain, ← ih]
    refine or_congr_right ⟨?_, fun listed => ⟨outer, ho, parent, listed⟩⟩
    intro ⟨around, hAround, parent', listed⟩
    rw [parent, Option.some_inj] at parent'
    rwa [parent']

end WellFormed

end Topology

end CloudCanvas
