import CloudCanvas.Proofs.Topology.Links
import CloudCanvas.Proofs.Topology.Reachable

/-!
# Neighbours

Links have no direction where neighbours are concerned: of two elements that a link joins each is
linked to the other, and an element that a link joins to itself is linked to itself.  Links that
join the same elements count once, where the first of them stands.

## Main definitions

* `Topology.linkedIds`: the ids of what is linked to an element.
* `Topology.takeUp`: one step of a walk along the links.
* `Topology.LinksNeighbours`: what makes elements neighbours, and in which order.

The main statement is `Topology.linksNeighbours_of_reachable`.
-/

namespace CloudCanvas

theorem Link.joins_comm {link : Link} {id other : String} :
    link.Joins id other ↔ link.Joins other id :=
  or_comm

theorem Link.joins_self_iff {link : Link} {id : String} :
    link.Joins id id ↔ link.source = id ∧ link.target = id :=
  or_self_iff

namespace Topology

variable {t : Topology}

/-- The ids of what is linked to an element. -/
def linkedIds (t : Topology) (id : String) : List String :=
  (t.linked id).map Element.id

/-- One step of a walk along the links: the other end of a link at an element is taken up if it
is an element that has not been taken up before. -/
def takeUp (t : Topology) (id : String) (found : List Element) (link : Link) : List Element :=
  match link.otherEnd? id with
  | none => found
  | some other =>
    if other ∈ found.map Element.id then found else found ++ (t.element? other).toList

/-- What makes elements neighbours, and in which order. -/
structure LinksNeighbours (t : Topology) : Prop where
  /-- Neighbours are what some link joins, whichever of them it starts at. -/
  mem_linkedIds_iff {id other} : other ∈ t.linkedIds id ↔ ∃ link ∈ t.links, link.Joins id other
  symm_iff {id other} : other ∈ t.linkedIds id ↔ id ∈ t.linkedIds other
  /-- An element is its own neighbour if a link starts and ends at it. -/
  self_iff {id} : id ∈ t.linkedIds id ↔ ∃ link ∈ t.links, link.source = id ∧ link.target = id
  nodup {id} : (t.linkedIds id).Nodup
  /-- Neighbours stand in the order of the first links that join them. -/
  ordered {id} : (t.linkedIds id).Pairwise
    (fun first second => t.firstLink id first < t.firstLink id second)
  /-- One walk along the links finds all neighbours. -/
  eq_foldl {id} : t.linked id = t.links.foldl (t.takeUp id) []
  /-- What is linked is the element of the drawing with its id. -/
  element?_eq {id element} : element ∈ t.linked id → t.element? element.id = some element
  /-- Neighbours of a kind are all neighbours that are of the kind, in the same order. -/
  ofKind_sublist {id kind} : (t.linkedOfKind id kind).Sublist (t.linked id)
  mem_ofKind_iff {id kind element} :
    element ∈ t.linkedOfKind id kind ↔ element ∈ t.linked id ∧ element.kind = kind.tag

/-! ## Well-formed drawings -/

namespace WellFormed

variable (wf : t.WellFormed) {id other : String}
include wf

theorem mem_linkedIds_iff :
    other ∈ t.linkedIds id ↔ ∃ link ∈ t.links, link.Joins id other := by
  rw [linkedIds, List.mem_map]
  constructor
  · rintro ⟨element, linked, rfl⟩
    exact (wf.mem_linked_iff.1 linked).2
  · rintro ⟨link, mem, joins⟩
    have used : other ∈ t.elementIds := by
      rcases joins with ⟨-, target⟩ | ⟨source, -⟩
      · exact target ▸ (wf.link_ends link mem).2
      · exact source ▸ (wf.link_ends link mem).1
    obtain ⟨element, found⟩ := Option.isSome_iff_exists.1 (isSome_element?_iff.2 used)
    obtain ⟨listed, rfl⟩ := wf.element?_eq_some_iff.1 found
    exact ⟨element, wf.mem_linked_iff.2 ⟨listed, link, mem, joins⟩, rfl⟩

theorem pairwise_linkedIds : (t.linkedIds id).Pairwise
    (fun first second => t.firstLink id first < t.firstLink id second) :=
  List.pairwise_map.2 wf.pairwise_linked

theorem mem_map_id_filterMap_iff {element : Element} {ids : List String}
    (found : t.element? other = some element) :
    other ∈ (ids.filterMap t.element?).map Element.id ↔ other ∈ ids := by
  simp only [List.mem_map, List.mem_filterMap]
  constructor
  · rintro ⟨same, ⟨sameId, mem, reached⟩, eq⟩
    rwa [← eq, (wf.element?_eq_some_iff.1 reached).2]
  · intro mem
    exact ⟨element, ⟨other, mem, found⟩, (wf.element?_eq_some_iff.1 found).2⟩

/-- What one more link adds to the elements that others lead to. -/
theorem takeUp_eq (ids : List String) (link : Link) :
    t.takeUp id (ids.eraseDups.filterMap t.element?) link =
      (ids ++ (link.otherEnd? id).toList).eraseDups.filterMap t.element? := by
  rw [takeUp]
  split
  · rename_i nowhere
    rw [nowhere, Option.toList_none, List.append_nil]
  · rename_i other there
    have again : [other].removeAll ids = if other ∈ ids then [] else [other] := by
      by_cases known : other ∈ ids <;> simp [List.removeAll, known]
    rw [there, Option.toList_some, List.eraseDups_append, List.filterMap_append, again]
    cases found : t.element? other with
    | none =>
        have nothing :
            (if other ∈ ids then [] else [other]).eraseDups.filterMap t.element? = [] := by
          split <;> simp [found]
        rw [nothing, Option.toList_none, List.append_nil, ite_self]
    | some element =>
        have single : [other].eraseDups.filterMap t.element? = [element] := by
          rw [List.eraseDups_cons, List.filter_nil, List.eraseDups_nil, List.filterMap_cons, found,
            List.filterMap_nil]
        simp only [wf.mem_map_id_filterMap_iff found, List.mem_eraseDups]
        split
        · simp
        · rw [single, Option.toList_some]

theorem linked_eq_foldl : t.linked id = t.links.foldl (t.takeUp id) [] := by
  suffices walk : ∀ links : List Link, links.foldl (t.takeUp id) [] =
      (links.filterMap (·.otherEnd? id)).eraseDups.filterMap t.element? from (walk t.links).symm
  intro links
  -- the walk meets the links from the first to the last, so the induction takes the last one off
  induction links using List.reverseRecOn with
  | nil => rfl
  | append_singleton links link ih =>
      rw [List.foldl_concat, ih, wf.takeUp_eq, List.filterMap_append]
      rfl

theorem linksNeighbours : t.LinksNeighbours where
  mem_linkedIds_iff := wf.mem_linkedIds_iff
  symm_iff := by
    intro id other
    simp only [wf.mem_linkedIds_iff, Link.joins_comm]
  self_iff := by
    intro id
    simp only [wf.mem_linkedIds_iff, Link.joins_self_iff]
  nodup := wf.pairwise_linkedIds.imp fun lt same => by
    rw [same] at lt
    exact Nat.lt_irrefl _ lt
  ordered := wf.pairwise_linkedIds
  eq_foldl := wf.linked_eq_foldl
  element?_eq linked := wf.element?_eq_some_iff.2 ⟨(wf.mem_linked_iff.1 linked).1, rfl⟩
  ofKind_sublist := List.filter_sublist
  mem_ofKind_iff := by
    intro id kind element
    rw [linkedOfKind, List.mem_filter, beq_iff_eq]

end WellFormed

/-- **Neighbours of every drawing.**  Whatever its history, elements are neighbours, each of the
other, if and only if a link joins them, no neighbour is listed twice, and neighbours stand in
the order of the first links that join them, also those of a kind. -/
theorem linksNeighbours_of_reachable (reachable : t.Reachable) : t.LinksNeighbours :=
  reachable.wellFormed.linksNeighbours

/-- Links in either direction, several of them, and one from an element to itself. -/
theorem linksNeighbours_looped :
    let node (id kind : String) : Node := ⟨id, kind, ∅, none, none⟩
    let t := run ∅ [.addNode (node "a" "virtual-machine"), .addNode (node "b" "network-interface"),
      .addGroup ⟨⟨"net", "virtual-network", ∅, none, none⟩, [], []⟩, .addLink ⟨"1", "b", "a", ∅⟩,
      .addLink ⟨"2", "a", "a", ∅⟩, .addLink ⟨"3", "a", "b", ∅⟩, .addLink ⟨"4", "net", "a", ∅⟩]
    t.Reachable ∧ t.LinksNeighbours ∧ t.linkedIds "a" = ["b", "a", "net"] ∧
      t.linkedIds "b" = ["a"] ∧
      (t.linkedOfKind "a" .networkInterface).map Element.id = ["b"] := by
  intro node t
  have reachable : t.Reachable := ⟨_, rfl⟩
  refine ⟨reachable, linksNeighbours_of_reachable reachable, ?_, ?_, ?_⟩
  · decide +kernel
  · decide +kernel
  · decide +kernel

end Topology

end CloudCanvas
