import CloudCanvas.Proofs.Fold
import CloudCanvas.Proofs.Topology.Insertion
import CloudCanvas.Proofs.Topology.Properties
import CloudCanvas.Proofs.Topology.Removal
import CloudCanvas.Topology.History

/-!
# Every drawing is well-formed

The empty drawing is well-formed, and every change, done or refused, leaves a
well-formed drawing well-formed.  So is whatever a history of changes makes of the
empty drawing.
-/

namespace CloudCanvas

namespace Topology

variable {t t' : Topology}

theorem wellFormed_empty : (∅ : Topology).WellFormed where
  ids_nodup := .nil
  parents_first before group after parent split := by
    have : (∅ : Topology).groups = [] := rfl
    simp [this] at split
  node_group := by simp [EmptyCollection.emptyCollection, empty]
  childGroups_eq := by simp [EmptyCollection.emptyCollection, empty]
  childNodes_eq := by simp [EmptyCollection.emptyCollection, empty]
  link_ends := by simp [EmptyCollection.emptyCollection, empty]
  node_noNulls := by simp [EmptyCollection.emptyCollection, empty]
  group_noNulls := by simp [EmptyCollection.emptyCollection, empty]
  link_noNulls := by simp [EmptyCollection.emptyCollection, empty]

end Topology

namespace Archive

variable {a : Archive} {t t' : Topology}

/-- A stored group is added as a group that is not said to contain anything. -/
theorem addGroup_eq_ok_iff {record : GroupRecord} : a.addGroup t record = .ok t' ↔
    t.addGroup { record with childGroups := [], childNodes := [] } = .ok t' := by
  rw [addGroup]
  split
  · rename_i parent missing
    refine iff_of_false (by simp) ?_
    rw [Topology.addGroup_eq_ok_iff, ← Topology.missingParent_eq_none_iff]
    simp [missing]
  · rfl

theorem restore_eq_ok_iff : a.restore = .ok t ↔ ∃ withGroups withNodes,
    a.groups.foldlM a.addGroup ∅ = .ok withGroups ∧
      a.nodes.foldlM Topology.addNode withGroups = .ok withNodes ∧
        a.links.foldlM Topology.addLink withNodes = .ok t := by
  simp [restore, bind_eq_ok_iff]

/-- A restored drawing is well-formed. -/
theorem restore_wellFormed (h : a.restore = .ok t) : t.WellFormed := by
  obtain ⟨withGroups, withNodes, hGroups, hNodes, hLinks⟩ := restore_eq_ok_iff.1 h
  have groups := foldlM_keeps (P := Topology.WellFormed)
    (fun _ _ _ wf h => wf.addGroup (addGroup_eq_ok_iff.1 h)) Topology.wellFormed_empty hGroups
  have nodes := foldlM_keeps (P := Topology.WellFormed)
    (fun _ _ _ wf h => wf.addNode h) groups hNodes
  exact foldlM_keeps (P := Topology.WellFormed) (fun _ _ _ wf h => wf.addLink h) nodes hLinks

end Archive

namespace Topology

variable {t : Topology}

theorem WellFormed.load (a : Archive) : (t.load a).2.WellFormed := by
  rw [Topology.load]
  split
  · rename_i restored
    exact a.restore_wellFormed restored
  · exact wellFormed_empty

theorem WellFormed.settle (wf : t.WellFormed) {result : Except IntegrityError Topology}
    (h : ∀ next, result = .ok next → next.WellFormed) : (t.settle result).2.WellFormed := by
  cases result with
  | ok next => exact h next rfl
  | error e => exact wf

theorem WellFormed.settleRemoval (wf : t.WellFormed) {result : Option Topology}
    (h : ∀ next, result = some next → next.WellFormed) :
    (t.settleRemoval result).2.WellFormed := by
  cases result with
  | some next => exact h next rfl
  | none => exact wf

/-- **Every change keeps a drawing well-formed, done or refused.** -/
theorem WellFormed.apply (wf : t.WellFormed) (edit : Edit) : (t.apply edit).2.WellFormed := by
  cases edit with
  | addNode node =>
      rw [apply_addNode]
      exact wf.settle fun _ => wf.addNode
  | addGroup group =>
      rw [apply_addGroup]
      exact wf.settle fun _ => wf.addGroup
  | addLink link =>
      rw [apply_addLink]
      exact wf.settle fun _ => wf.addLink
  | remove id => exact wf.settleRemoval fun _ => wf.remove?
  | removeNode id => exact wf.settleRemoval fun _ => wf.removeNode?
  | removeGroup id => exact wf.settleRemoval fun _ => wf.removeGroup?
  | removeLink id => exact wf.settleRemoval fun _ => wf.removeLink?
  | setProperty id name value =>
      rw [apply_setProperty]
      exact wf.settle fun _ => wf.setProperty
  | removeProperty id name =>
      rw [apply_removeProperty]
      split
      · rename_i removed
        exact wf.removeProperty removed
      · exact wf
  | clear => exact wellFormed_empty
  | load archive =>
      have loaded := WellFormed.load (t := t) archive
      rwa [Topology.apply, snd_outcome]

/-- A history of changes keeps a drawing well-formed. -/
theorem WellFormed.run (wf : t.WellFormed) (edits : List Edit) : (t.run edits).WellFormed := by
  induction edits generalizing t with
  | nil => exact wf
  | cons edit edits ih => exact ih (wf.apply edit)

theorem Reachable.wellFormed (h : t.Reachable) : t.WellFormed := by
  obtain ⟨edits, rfl⟩ := h
  exact wellFormed_empty.run edits

/-- **Whatever a history of changes makes of the empty drawing is well-formed**, and its
membership lists name nothing twice. -/
theorem wellFormed_run_empty (edits : List Edit) :
    (run ∅ edits).WellFormed ∧ ∀ group ∈ (run ∅ edits).groups,
      group.childGroups.Nodup ∧ group.childNodes.Nodup := by
  have wf := wellFormed_empty.run edits
  exact ⟨wf, fun group mem => ⟨wf.childGroups_nodup mem, wf.childNodes_nodup mem⟩⟩

end Topology

end CloudCanvas
