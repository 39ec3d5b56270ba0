import CloudCanvas.Catalog
import CloudCanvas.Proofs.Topology.WellFormed
import Mathlib.Data.List.Nodup

/-!
# What links join

The linked elements of an element are the other ends of its links, each of them once.

## Main definitions

* `Link.Joins`: the two ends of a link, in either order.
* `Topology.elements`: all groups and nodes.
* `Topology.firstLink`: where the first link stands that joins two elements.
* `Topology.LinkedKind`: an element of a kind that some link joins to another.

The main statements are `Topology.WellFormed.mem_linked_iff`,
`Topology.WellFormed.nodup_linked` and `Topology.WellFormed.pairwise_linked`.
-/

namespace CloudCanvas

/-- A link joins its two ends, whichever of them it starts at. -/
def Link.Joins (link : Link) (id other : String) : Prop :=
  (link.source = id ∧ link.target = other) ∨ (link.source = other ∧ link.target = id)

instance (link : Link) (id other : String) : Decidable (link.Joins id other) :=
  inferInstanceAs (Decidable ((link.source = id ∧ link.target = other) ∨
    (link.source = other ∧ link.target = id)))

theorem Link.otherEnd?_eq_some_iff {link : Link} {id other : String} :
    link.otherEnd? id = some other ↔ link.Joins id other := by
  rw [otherEnd?, Joins]
  by_cases source : link.source = id
  · rw [if_pos source, Option.some_inj]
    constructor
    · exact fun target => .inl ⟨source, target⟩
    · rintro (⟨-, target⟩ | ⟨other, target⟩)
      · exact target
      · rw [target, ← source, other]
  · by_cases target : link.target = id
    · rw [if_neg source, if_pos target, Option.some_inj]
      simp [source, target]
    · simp [source, target]

theorem nodup_eraseDups (ids : List String) : ids.eraseDups.Nodup := by
  induction hn : ids.length using Nat.strongRecOn generalizing ids with
  | ind n ih =>
      cases ids with
      | nil => simp
      | cons id ids =>
          rw [List.eraseDups_cons, List.nodup_cons]
          have shorter : (ids.filter (fun other => !other == id)).length < n := by
            rw [← hn]
            exact Nat.lt_succ_of_le (List.length_filter_le _ _)
          refine ⟨?_, ih _ shorter _ rfl⟩
          simp [List.mem_eraseDups]

/-- A condition selects the same before and after all repetitions are left out. -/
theorem filter_eraseDups (keep : String → Bool) (ids : List String) :
    ids.eraseDups.filter keep = (ids.filter keep).eraseDups := by
  induction hn : ids.length using Nat.strongRecOn generalizing ids with
  | ind n ih =>
      cases ids with
      | nil => rfl
      | cons id ids =>
          have shorter : (ids.filter (fun other => !other == id)).length < n := by
            rw [← hn]
            exact Nat.lt_succ_of_le (List.length_filter_le _ _)
          have rest := ih _ shorter (ids.filter (fun other => !other == id)) rfl
          rw [List.eraseDups_cons]
          by_cases kept : keep id = true
          · rw [List.filter_cons_of_pos kept, List.filter_cons_of_pos kept, rest,
              List.eraseDups_cons, List.filter_comm]
          · rw [List.filter_cons_of_neg kept, List.filter_cons_of_neg kept, rest,
              List.filter_filter]
            congr 1
            refine List.filter_congr fun other _ => ?_
            by_cases same : other = id
            · simp [same, kept]
            · simp [same]

/-- Of the results of a list, each once, the one that stands before another is met first. -/
theorem pairwise_eraseDups_filterMap {α : Type} (f : α → Option String) (xs : List α)
    (keep : String → Bool) : ((xs.filterMap f).filter keep).eraseDups.Pairwise
      (fun a b => xs.findIdx (f · == some a) < xs.findIdx (f · == some b)) := by
  -- the induction is for all conditions: behind a result that is taken it does not come again
  induction xs generalizing keep with
  | nil => simp
  | cons x xs ih =>
      cases found : f x with
      | none =>
          rw [List.filterMap_cons_none found]
          exact (ih keep).imp fun lt => by simpa [List.findIdx_cons, found] using lt
      | some first =>
          have later : ∀ a, a ≠ first →
              (x :: xs).findIdx (f · == some a) = xs.findIdx (f · == some a) + 1 := by
            intro a ne
            simp [List.findIdx_cons, found, beq_false_of_ne ne.symm]
          have rest : ∀ keep' : String → Bool, keep' first = false →
              (first :: ((xs.filterMap f).filter keep').eraseDups).Pairwise (fun a b =>
                (x :: xs).findIdx (f · == some a) < (x :: xs).findIdx (f · == some b)) := by
            intro keep' dropped
            have different : ∀ a ∈ ((xs.filterMap f).filter keep').eraseDups, a ≠ first := by
              intro a mem eq
              have kept := (List.mem_filter.1 (List.mem_eraseDups.1 mem)).2
              rw [eq, dropped] at kept
              cases kept
            refine List.pairwise_cons.2 ⟨fun a mem => ?_, (ih keep').imp_of_mem ?_⟩
            · rw [later a (different a mem), List.findIdx_cons, found]
              simp
            · intro a b memA memB lt
              rw [later a (different a memA), later b (different b memB)]
              omega
          rw [List.filterMap_cons_some found]
          by_cases kept : keep first = true
          · rw [List.filter_cons_of_pos kept, List.eraseDups_cons, List.filter_filter]
            exact rest _ (by simp)
          · rw [List.filter_cons_of_neg kept]
            exact (rest keep (by simpa using kept)).of_cons

namespace Topology

variable {t : Topology} {id : String} {element : Element}

/-- All groups and all nodes. -/
def elements (t : Topology) : List Element :=
  t.groups.map .group ++ t.nodes.map .node

theorem mem_elements : element ∈ t.elements ↔
    (∃ group ∈ t.groups, .group group = element) ∨ ∃ node ∈ t.nodes, .node node = element := by
  simp [elements]

theorem group_mem_elements {group : Group} (mem : group ∈ t.groups) :
    .group group ∈ t.elements :=
  mem_elements.2 (.inl ⟨group, mem, rfl⟩)

theorem node_mem_elements {node : Node} (mem : node ∈ t.nodes) : .node node ∈ t.elements :=
  mem_elements.2 (.inr ⟨node, mem, rfl⟩)

theorem isEmpty_iff_length : t.isEmpty = true ↔ t.elements.length = 0 := by
  simp [isEmpty, elements, and_comm]

namespace WellFormed

variable (wf : t.WellFormed)
include wf

/-- An id names the one element that has it. -/
theorem element?_eq_some_iff : t.element? id = some element ↔
    element ∈ t.elements ∧ element.id = id := by
  constructor
  · intro found
    rw [mem_elements]
    rw [element?] at found
    split at found
    · rename_i node h
      obtain rfl := Option.some.inj found
      obtain ⟨mem, eq⟩ := mem_of_node?_eq_some h
      exact ⟨.inr ⟨node, mem, rfl⟩, eq⟩
    · obtain ⟨group, h, rfl⟩ := Option.map_eq_some_iff.1 found
      obtain ⟨mem, eq⟩ := mem_of_group?_eq_some h
      exact ⟨.inl ⟨group, mem, rfl⟩, eq⟩
  · rintro ⟨listed, rfl⟩
    rcases mem_elements.1 listed with ⟨group, mem, rfl⟩ | ⟨node, mem, rfl⟩
    · exact wf.element?_group mem
    · exact wf.element?_node mem

/-- **What is linked to an element**: whatever some link joins to it. -/
theorem mem_linked_iff : element ∈ t.linked id ↔
    element ∈ t.elements ∧ ∃ link ∈ t.links, link.Joins id element.id := by
  simp only [linked, List.mem_filterMap, List.mem_eraseDups, wf.element?_eq_some_iff,
    Link.otherEnd?_eq_some_iff]
  constructor
  · rintro ⟨_, ⟨link, mem, joins⟩, listed, rfl⟩
    exact ⟨listed, link, mem, joins⟩
  · rintro ⟨listed, link, mem, joins⟩
    exact ⟨element.id, ⟨link, mem, joins⟩, listed, rfl⟩

/-- Nothing is linked twice. -/
theorem nodup_linked : (t.linked id).Nodup := by
  rw [linked]
  refine List.Nodup.filterMap (fun a b e ha hb => ?_) (nodup_eraseDups _)
  rw [Option.mem_def, wf.element?_eq_some_iff] at ha hb
  exact ha.2.symm.trans hb.2

end WellFormed

/-- The place of the first link that joins two elements, behind all links if there is none. -/
def firstLink (t : Topology) (id other : String) : ℕ :=
  t.links.findIdx (fun link => decide (link.Joins id other))

/-- **What is linked stands in the order of the links**: what an earlier link joins first is
earlier. -/
theorem WellFormed.pairwise_linked (wf : t.WellFormed) : (t.linked id).Pairwise
    (fun first second => t.firstLink id first.id < t.firstLink id second.id) := by
  have place : ∀ other, t.firstLink id other =
      t.links.findIdx (fun link => link.otherEnd? id == some other) := by
    intro other
    rw [firstLink]
    congr 1
    funext link
    rw [Bool.eq_iff_iff, decide_eq_true_eq, beq_iff_eq, Link.otherEnd?_eq_some_iff]
  have order := pairwise_eraseDups_filterMap (·.otherEnd? id) t.links (fun _ => true)
  rw [List.filter_true] at order
  rw [linked, List.pairwise_filterMap]
  refine order.imp fun lt first hFirst second hSecond => ?_
  rw [place, place, (wf.element?_eq_some_iff.1 hFirst).2, (wf.element?_eq_some_iff.1 hSecond).2]
  exact lt

/-- Whether an element of a kind is linked to another. -/
def LinkedKind (t : Topology) (id : String) (kind : ResourceKind) (element : Element) : Prop :=
  element ∈ t.elements ∧ element.kind = kind.tag ∧ ∃ link ∈ t.links, link.Joins id element.id

theorem WellFormed.mem_linkedOfKind_iff (wf : t.WellFormed) {kind : ResourceKind} :
    element ∈ t.linkedOfKind id kind ↔ t.LinkedKind id kind element := by
  rw [linkedOfKind, List.mem_filter, wf.mem_linked_iff, LinkedKind, beq_iff_eq]
  exact ⟨fun ⟨⟨listed, joined⟩, kind⟩ => ⟨listed, kind, joined⟩,
    fun ⟨listed, kind, joined⟩ => ⟨⟨listed, joined⟩, kind⟩⟩

theorem WellFormed.pairwise_linkedOfKind (wf : t.WellFormed) {kind : ResourceKind} :
    (t.linkedOfKind id kind).Pairwise
      (fun first second => t.firstLink id first.id < t.firstLink id second.id) :=
  wf.pairwise_linked.filter _

theorem WellFormed.nodup_linkedOfKind (wf : t.WellFormed) {kind : ResourceKind} :
    (t.linkedOfKind id kind).Nodup :=
  wf.nodup_linked.filter _

end Topology

end CloudCanvas
