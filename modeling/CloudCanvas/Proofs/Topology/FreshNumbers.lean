import CloudCanvas.Proofs.Topology.Numbering
import Mathlib.Computability.StateTransition
import Mathlib.Order.Bounds.Defs

/-!
# The search for a free number

A number for a link is looked for in a loop without a bound: the numbers behind the number
of links are tried one after another until one is free.  As ids are finitely many and different
numbers make different ids, the loop ends, after no more tries than there are ids and one, at
the least of the free numbers.  A link that takes this number leaves only greater ones free, so
links that are numbered one after another get increasing numbers.

## Main definitions

* `Topology.numberTurn`: one turn of the loop.
* `Topology.freeNumbers`: the numbers of which the search finds the least.

The main statement is `Topology.isLeast_freshLinkId`.
-/

namespace CloudCanvas

namespace Topology

/-- One turn of the search: on to the next number, unless this one is free. -/
def numberTurn (t : Topology) (n : ℕ) : Option ℕ :=
  if t.uses (numberedLink n) then some (n + 1) else none

/-- The numbers behind the number of links under which nothing is known. -/
def freeNumbers (t : Topology) : Set ℕ :=
  {n | t.links.length < n ∧ numberedLink n ∉ t.ids}

/-- Links are added one after another under free numbers, which increase, so that no two of them
get the same id. -/
def AddsNumbered (t : Topology) (drafts : List LinkDraft) : Prop :=
  ∃ (numbers : List ℕ) (u : Topology), t.addLinks drafts = .ok (numbers.map numberedLink, u) ∧
    numbers.length = drafts.length ∧ numbers.Pairwise (· < ·) ∧
      (numbers.map numberedLink).Nodup ∧ ∀ n ∈ numbers, n ∈ t.freeNumbers

variable {t : Topology} {n start : ℕ} {drafts : List LinkDraft}

/-! ## The loop -/

theorem numberTurn_of_mem (used : numberedLink n ∈ t.ids) : t.numberTurn n = some (n + 1) :=
  if_pos (uses_iff.2 used)

theorem numberTurn_of_notMem (free : numberedLink n ∉ t.ids) : t.numberTurn n = none :=
  if_neg (mt uses_iff.1 free)

/-- The loop passes the numbers that are in use. -/
theorem reaches_number {i : ℕ} (used : ∀ j < i, numberedLink (start + j) ∈ t.ids) :
    StateTransition.Reaches t.numberTurn start (start + i) := by
  induction i with
  | zero => exact .refl
  | succ i ih =>
      have before := ih fun j less => used j (Nat.lt_succ_of_lt less)
      exact before.tail (numberTurn_of_mem (used i (Nat.lt_succ_self i)))

/-- The loop ends at the first number that is free. -/
theorem mem_eval_numberTurn {i : ℕ} (used : ∀ j < i, numberedLink (start + j) ∈ t.ids)
    (free : numberedLink (start + i) ∉ t.ids) :
    start + i ∈ StateTransition.eval t.numberTurn start :=
  StateTransition.mem_eval.2 ⟨reaches_number used, numberTurn_of_notMem free⟩

/-- The search ends at the least free number, which makes the fresh id. -/
theorem exists_search (t : Topology) : ∃ tries ≤ t.size + 1,
    t.links.length + tries ∈ StateTransition.eval t.numberTurn (t.links.length + 1) ∧
      IsLeast t.freeNumbers (t.links.length + tries) ∧
        t.freshLinkId = numberedLink (t.links.length + tries) := by
  obtain ⟨i, small, eq, free, used⟩ := t.exists_freshLinkId_first
  have ends := mem_eval_numberTurn used free
  have place : t.links.length + 1 + i = t.links.length + (i + 1) := by omega
  rw [place] at eq free ends
  refine ⟨i + 1, small, ends, ⟨⟨by omega, free⟩, ?_⟩, eq⟩
  intro n ⟨behind, unused⟩
  by_contra less
  have taken := used (n - (t.links.length + 1)) (by omega)
  rw [Nat.add_sub_cancel' behind] at taken
  exact unused taken

/-! ## One link after another -/

/-- A link that takes the least free number leaves only greater ones free. -/
theorem freeNumbers_withLink {link : Link} (least : IsLeast t.freeNumbers n)
    (takes : link.id = numberedLink n) {m : ℕ} (free : m ∈ (t.withLink link).freeNumbers) :
    m ∈ t.freeNumbers ∧ n < m := by
  obtain ⟨behind, unused⟩ := free
  rw [mem_ids_withLink, not_or] at unused
  have links : (t.withLink link).links.length = t.links.length + 1 := by simp [withLink]
  have before : m ∈ t.freeNumbers := ⟨by omega, unused.1⟩
  have ne : m ≠ n := by
    rintro rfl
    exact unused.2 takes.symm
  exact ⟨before, Nat.lt_of_le_of_ne (least.2 before) ne.symm⟩

/-- Links without ids are all added, under free numbers that increase. -/
theorem exists_numbers (unnamed : ∀ draft ∈ drafts, draft.id = none ∧
    draft.source ∈ t.elementIds ∧ draft.target ∈ t.elementIds) :
    ∃ (numbers : List ℕ) (u : Topology), t.addLinks drafts = .ok (numbers.map numberedLink, u) ∧
      numbers.length = drafts.length ∧ numbers.Pairwise (· < ·) ∧
        ∀ m ∈ numbers, m ∈ t.freeNumbers := by
  induction drafts generalizing t with
  | nil => exact ⟨[], t, rfl, rfl, .nil, by simp⟩
  | cons draft drafts ih =>
      obtain ⟨⟨none, ends⟩, others⟩ := List.forall_mem_cons.1 unnamed
      obtain ⟨tries, -, -, least, fresh⟩ := t.exists_search
      have takes : (t.linkFor draft).id = numberedLink (t.links.length + tries) := by
        rw [id_linkFor_of_unnamed none, fresh]
      have added : t.addDraft draft =
          .ok (numberedLink (t.links.length + tries), t.withLink (t.linkFor draft)) := by
        rcases addDraft_cases ends with ⟨-, added⟩ | ⟨id, -, given, -⟩
        · rw [added, takes]
        · cases none.symm.trans given
      obtain ⟨numbers, u, done, length, increasing, free⟩ :=
        ih (t := t.withLink (t.linkFor draft)) others
      have behind := fun m mem => freeNumbers_withLink least takes (free m mem)
      refine ⟨(t.links.length + tries) :: numbers, u, ?_, by simp [length], ?_, ?_⟩
      · rw [addLinks_cons_of_ok added, done, ok_bind, List.map_cons]
      · exact List.pairwise_cons.2 ⟨fun m mem => (behind m mem).2, increasing⟩
      · exact List.forall_mem_cons.2 ⟨least.1, fun m mem => (behind m mem).1⟩

/-- **The search for a number ends at the least free number**, after no more tries than there are
ids and one, whatever the ids are: of the numbers behind the number of links one is tried after
the other.  It makes the fresh id, and links that are numbered one after another get different
ids, as their numbers increase. -/
theorem isLeast_freshLinkId (t : Topology) :
    (∃ tries ≤ t.size + 1,
      t.links.length + tries ∈ StateTransition.eval t.numberTurn (t.links.length + 1) ∧
        IsLeast t.freeNumbers (t.links.length + tries) ∧
          t.freshLinkId = numberedLink (t.links.length + tries)) ∧
    ∀ drafts : List LinkDraft, (∀ draft ∈ drafts, draft.id = none ∧
      draft.source ∈ t.elementIds ∧ draft.target ∈ t.elementIds) → t.AddsNumbered drafts := by
  refine ⟨t.exists_search, fun drafts unnamed => ?_⟩
  obtain ⟨numbers, u, done, length, increasing, free⟩ := exists_numbers unnamed
  have different : numbers.Nodup := increasing.imp Nat.ne_of_lt
  have nodup : (numbers.map numberedLink).Nodup := different.map numberedLink_injective
  exact ⟨numbers, u, done, length, increasing, nodup, free⟩

/-- Nodes and a group have the ids of the first, the second and the fourth number, so that two
links get the third and the fifth. -/
theorem isLeast_freshLinkId_taken :
    let node (id : String) : Node := ⟨id, "text-note", ∅, none, none⟩
    let group (id : String) : Group := ⟨⟨id, "group", ∅, none, none⟩, [], []⟩
    let draft : LinkDraft := ⟨none, "link-1", "link-2", ∅⟩
    let t := run ∅ [.addNode (node "link-1"), .addGroup (group "link-2"), .addNode (node "link-4")]
    (∀ given ∈ [draft, draft], given.id = none ∧
      given.source ∈ t.elementIds ∧ given.target ∈ t.elementIds) ∧
      t.AddsNumbered [draft, draft] ∧
        (t.addLinks [draft, draft]).map (·.1) = .ok ["link-3", "link-5"] := by
  intro node group draft t
  have unnamed : ∀ given ∈ [draft, draft], given.id = none ∧
      given.source ∈ t.elementIds ∧ given.target ∈ t.elementIds := by decide
  have ids : (t.addLinks [draft, draft]).map (·.1) = .ok ["link-3", "link-5"] := by
    decide +kernel
  exact ⟨unnamed, t.isLeast_freshLinkId.2 _ unnamed, ids⟩

end Topology

end CloudCanvas
