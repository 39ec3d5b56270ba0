import CloudCanvas.Proofs.Topology.Batch
import Mathlib.Data.List.Perm.Subperm

/-!
# Numbered links

A link that comes without an id is numbered: it gets the first id of the row `link-1`,
`link-2` and so on that is behind the number of links and that nothing has.  Which number that
is depends on the drawing only, not on the ids that the rest of a batch brings along.  So a
link without an id can get the id that comes with a later one, which is then refused.

## Main definitions

* `LinkDraft.named`: the ids that come with drafts.
* `Topology.Suits`: drafts that ask for nothing that the drawing forbids.
* `Topology.Preempts`: a draft without an id gets one that comes with a later draft.

The main statements are `Topology.exists_freshLinkId_first`,
`Topology.Suits.exists_addLinks` and `Topology.Preempts.exists_refused`.
-/

namespace CloudCanvas

theorem numberedLink_injective : Function.Injective numberedLink := by
  intro m n same
  have texts : toString m = toString n := (String.append_right_inj _).1 same
  have digits : Nat.toDigits 10 m = Nat.toDigits 10 n := by
    simpa only [Nat.toString_eq_repr, Nat.toList_repr] using congrArg String.toList texts
  simpa using congrArg (Nat.ofDigitChars 10 · 0) digits

/-- The ids that come with drafts. -/
def LinkDraft.named (drafts : List LinkDraft) : List String :=
  drafts.filterMap (·.id)

theorem LinkDraft.sublist_named_cons (draft : LinkDraft) (drafts : List LinkDraft) :
    (named drafts).Sublist (named (draft :: drafts)) :=
  (List.sublist_cons_self _ _).filterMap _

namespace Topology

variable {t u : Topology} {id : String} {draft : LinkDraft} {drafts : List LinkDraft}

/-! ## The first free number -/

theorem length_ids : t.ids.length = t.size := by
  simp [ids, elementIds, size, Nat.add_assoc]

/-- Of more numbers than there are ids, one is free. -/
theorem exists_free_number (t : Topology) (start : ℕ) :
    ∃ i < t.size + 1, numberedLink (start + i) ∉ t.ids := by
  by_contra all
  push Not at all
  let row := (List.range (t.size + 1)).map fun i => numberedLink (start + i)
  have nodup : row.Nodup := List.nodup_range.map fun i j same =>
    Nat.add_left_cancel (numberedLink_injective same)
  have used : row ⊆ t.ids := by
    intro id mem
    obtain ⟨i, small, rfl⟩ := List.mem_map.1 mem
    exact all i (List.mem_range.1 small)
  have short : t.size + 1 ≤ t.size := by
    simpa [row, length_ids] using (List.subperm_of_subset nodup used).length_le
  exact Nat.not_succ_le_self _ short

/-- **A fresh id has the first free number** behind the number of links.  There are no more
tries than ids and one. -/
theorem exists_freshLinkId_first (t : Topology) : ∃ i < t.size + 1,
    t.freshLinkId = numberedLink (t.links.length + 1 + i) ∧
      numberedLink (t.links.length + 1 + i) ∉ t.ids ∧
        ∀ j < i, numberedLink (t.links.length + 1 + j) ∈ t.ids := by
  let free (i : ℕ) : Bool := !t.uses (numberedLink (t.links.length + 1 + i))
  have free_iff (i : ℕ) : free i = true ↔ numberedLink (t.links.length + 1 + i) ∉ t.ids := by
    rw [← uses_iff, Bool.not_eq_true', Bool.not_eq_true]
  obtain ⟨k, small, unused⟩ := t.exists_free_number (t.links.length + 1)
  cases found : (List.range (t.size + 1)).find? free with
  | none =>
      exact absurd ((free_iff k).2 unused) (List.find?_eq_none.1 found k (List.mem_range.2 small))
  | some i =>
      obtain ⟨first, tried, earlier⟩ := List.find?_range_eq_some.1 found
      refine ⟨i, List.mem_range.1 tried, ?_, (free_iff i).1 first, fun j less => ?_⟩
      · have same : (List.range (t.size + 1)).find? ((fun id => !t.uses id) ∘
            fun i => numberedLink (t.links.length + 1 + i)) = some i := found
        rw [freshLinkId, List.find?_map, same]
        rfl
      · have taken := earlier j less
        rwa [Bool.not_eq_true', ← Bool.not_eq_true, free_iff, not_not] at taken

theorem freshLinkId_notMem (t : Topology) : t.freshLinkId ∉ t.ids := by
  obtain ⟨i, -, eq, unused, -⟩ := t.exists_freshLinkId_first
  rwa [eq]

/-! ## One draft -/

/-- The link that a draft becomes. -/
def linkFor (t : Topology) (draft : LinkDraft) : Link :=
  ⟨draft.id.getD t.freshLinkId, draft.source, draft.target, draft.properties⟩

theorem id_linkFor_of_unnamed (unnamed : draft.id = none) :
    (t.linkFor draft).id = t.freshLinkId := by
  rw [linkFor, unnamed, Option.getD_none]

theorem id_linkFor_of_named (given : draft.id = some id) : (t.linkFor draft).id = id := by
  rw [linkFor, given, Option.getD_some]

theorem mem_ids_withLink {link : Link} :
    id ∈ (t.withLink link).ids ↔ id ∈ t.ids ∨ id = link.id := by
  rw [mem_ids, mem_ids, elementIds_withLink]
  simp [withLink, or_assoc, eq_comm]

/-- A draft whose ends are there is refused only for the id that comes with it. -/
theorem addDraft_cases (ends : draft.source ∈ t.elementIds ∧ draft.target ∈ t.elementIds) :
    (t.linkFor draft).id ∉ t.ids ∧
        t.addDraft draft = .ok ((t.linkFor draft).id, t.withLink (t.linkFor draft)) ∨
      ∃ id ∈ t.ids, draft.id = some id ∧ t.addDraft draft = .error (.duplicateId id) := by
  have adds : t.addDraft draft =
      t.addLink (t.linkFor draft) >>= fun u => .ok ((t.linkFor draft).id, u) :=
    addDraft_eq t draft
  by_cases used : (t.linkFor draft).id ∈ t.ids
  · right
    have refused := addLink_eq_error_iff.2 (.inl ⟨used, rfl⟩)
    refine ⟨(t.linkFor draft).id, used, ?_, by rw [adds, refused, error_bind]⟩
    cases given : draft.id with
    | none => exact absurd (id_linkFor_of_unnamed given ▸ used) t.freshLinkId_notMem
    | some id => rw [id_linkFor_of_named given]
  · left
    have added := addLink_eq_ok_iff.2 ⟨used, ends, rfl⟩
    exact ⟨used, by rw [adds, added, ok_bind]⟩

theorem addLinks_cons_of_ok (added : t.addDraft draft = .ok (id, u)) :
    t.addLinks (draft :: drafts) =
      u.addLinks drafts >>= fun done => .ok (id :: done.1, done.2) := by
  rw [addLinks_cons, added, ok_bind]

theorem addLinks_cons_of_error {e : IntegrityError} (refused : t.addDraft draft = .error e) :
    t.addLinks (draft :: drafts) = .error e := by
  rw [addLinks_cons, refused, error_bind]

/-! ## Batches -/

/-- **Drafts that ask for nothing that a drawing forbids**: their ends are there, and the ids that
come with them are new and different. -/
structure Suits (t : Topology) (drafts : List LinkDraft) : Prop where
  ends : ∀ draft ∈ drafts, draft.source ∈ t.elementIds ∧ draft.target ∈ t.elementIds
  nodup : (LinkDraft.named drafts).Nodup
  fresh : ∀ id ∈ LinkDraft.named drafts, id ∉ t.ids

/-- **A draft without an id gets one that comes with a later draft.** -/
inductive Preempts : Topology → List LinkDraft → Prop
  | here {t : Topology} {draft : LinkDraft} {drafts : List LinkDraft} (unnamed : draft.id = none)
      (taken : t.freshLinkId ∈ LinkDraft.named drafts) : Preempts t (draft :: drafts)
  | later {t u : Topology} {draft : LinkDraft} {drafts : List LinkDraft} {id : String}
      (added : t.addDraft draft = .ok (id, u)) (later : Preempts u drafts) :
      Preempts t (draft :: drafts)

namespace Suits

variable (suits : t.Suits (draft :: drafts))
include suits

/-- The first draft is added. -/
theorem addDraft :
    t.addDraft draft = .ok ((t.linkFor draft).id, t.withLink (t.linkFor draft)) := by
  rcases addDraft_cases (suits.ends draft List.mem_cons_self) with ⟨-, added⟩ | ⟨id, used, given, -⟩
  · exact added
  · have named : id ∈ LinkDraft.named (draft :: drafts) :=
      List.mem_filterMap.2 ⟨draft, List.mem_cons_self, given⟩
    exact absurd used (suits.fresh id named)

/-- The others suit what it leaves if it has none of their ids. -/
theorem tail (free : draft.id = none → t.freshLinkId ∉ LinkDraft.named drafts) :
    (t.withLink (t.linkFor draft)).Suits drafts where
  ends other mem := suits.ends other (List.mem_cons_of_mem _ mem)
  nodup := suits.nodup.sublist (LinkDraft.sublist_named_cons _ _)
  fresh id mem := by
    have fresh := suits.fresh
    have nodup := suits.nodup
    rw [mem_ids_withLink, not_or]
    cases given : draft.id with
    | none =>
        rw [LinkDraft.named, List.filterMap_cons_none given] at fresh
        rw [id_linkFor_of_unnamed given]
        exact ⟨fresh id mem, fun eq => free given (eq ▸ mem)⟩
    | some other =>
        rw [LinkDraft.named, List.filterMap_cons_some given] at fresh nodup
        rw [id_linkFor_of_named given]
        exact ⟨fresh id (List.mem_cons_of_mem _ mem),
          fun eq => (List.nodup_cons.1 nodup).1 (eq ▸ mem)⟩

end Suits

/-- **Drafts that suit a drawing are all added, if no id is taken from a later one.** -/
theorem Suits.exists_addLinks (suits : t.Suits drafts) (free : ¬ t.Preempts drafts) :
    ∃ ids u, t.addLinks drafts = .ok (ids, u) := by
  induction drafts generalizing t with
  | nil => exact ⟨_, _, rfl⟩
  | cons draft drafts ih =>
      have added := suits.addDraft
      have others := suits.tail fun unnamed taken => free (.here unnamed taken)
      obtain ⟨ids, u, done⟩ := ih others fun preempts => free (.later added preempts)
      exact ⟨_, _, by rw [addLinks_cons_of_ok added, done, ok_bind]⟩

/-- Drafts whose ends are there are refused if the id of one of them is in use. -/
theorem exists_refused_of_mem
    (ends : ∀ draft ∈ drafts, draft.source ∈ t.elementIds ∧ draft.target ∈ t.elementIds)
    (used : id ∈ t.ids) (named : id ∈ LinkDraft.named drafts) :
    ∃ id ∈ LinkDraft.named drafts, t.addLinks drafts = .error (.duplicateId id) := by
  induction drafts generalizing t with
  | nil => cases named
  | cons draft drafts ih =>
      rcases addDraft_cases (ends draft List.mem_cons_self) with
        ⟨fresh, added⟩ | ⟨other, -, given, refused⟩
      · have given : draft.id ≠ some id := fun eq => fresh (id_linkFor_of_named eq ▸ used)
        have named : id ∈ LinkDraft.named drafts := by
          simpa [LinkDraft.named, given] using named
        obtain ⟨other, mem, refused⟩ := ih (t := t.withLink (t.linkFor draft))
          (fun draft mem => ends draft (List.mem_cons_of_mem _ mem))
          (mem_ids_withLink.2 (.inl used)) named
        exact ⟨other, (LinkDraft.sublist_named_cons _ _).subset mem,
          by rw [addLinks_cons_of_ok added, refused, error_bind]⟩
      · exact ⟨other, List.mem_filterMap.2 ⟨draft, List.mem_cons_self, given⟩,
          addLinks_cons_of_error refused⟩

/-- **Drafts are refused if one of them gets the id of a later one.** -/
theorem Preempts.exists_refused (preempts : t.Preempts drafts)
    (ends : ∀ draft ∈ drafts, draft.source ∈ t.elementIds ∧ draft.target ∈ t.elementIds) :
    ∃ id ∈ LinkDraft.named drafts, t.addLinks drafts = .error (.duplicateId id) := by
  induction preempts with
  | @here t draft drafts unnamed taken =>
      rcases addDraft_cases (ends draft List.mem_cons_self) with
        ⟨-, added⟩ | ⟨other, -, given, -⟩
      · obtain ⟨id, mem, refused⟩ := exists_refused_of_mem (t := t.withLink (t.linkFor draft))
          (fun draft mem => ends draft (List.mem_cons_of_mem _ mem))
          (mem_ids_withLink.2 (.inr (id_linkFor_of_unnamed unnamed).symm)) taken
        exact ⟨id, (LinkDraft.sublist_named_cons _ _).subset mem,
          by rw [addLinks_cons_of_ok added, refused, error_bind]⟩
      · cases unnamed.symm.trans given
  | @later t u draft drafts id added _ ih =>
      obtain ⟨link, -, -, linked⟩ := addDraft_eq_ok added
      obtain ⟨-, -, rfl⟩ := addLink_eq_ok_iff.1 linked
      obtain ⟨other, mem, refused⟩ := ih fun draft mem => ends draft (List.mem_cons_of_mem _ mem)
      exact ⟨other, (LinkDraft.sublist_named_cons _ _).subset mem,
        by rw [addLinks_cons_of_ok added, refused, error_bind]⟩

/-- Nothing is preempted if no id comes with a draft behind one that has none. -/
theorem not_preempts_of_named_first
    (order : drafts.Pairwise fun draft later => draft.id = none → later.id = none) :
    ¬ t.Preempts drafts := by
  intro preempts
  induction preempts with
  | here unnamed taken =>
      obtain ⟨later, mem, given⟩ := List.mem_filterMap.1 taken
      cases (List.pairwise_cons.1 order).1 later mem unnamed |>.symm.trans given
  | later _ _ ih => exact ih (List.pairwise_cons.1 order).2

end Topology

end CloudCanvas
