import CloudCanvas.Proofs.Export.Contributions

/-!
# What the report says

The report has every element of the drawing once, under what became of it, and each of its
lists is in the order of the visits: the groups in pre-order, then the nodes as they were
added.  The exported elements are those that the resources were made of, one of each.

## Main definitions

* `Build.Accounts`: a report that has each element once and in order.

The main statement is `Topology.exists_preOrder_accounts`.
-/

namespace CloudCanvas

/-- A report has the elements of a drawing once each, in the order of their visits, and the
resources of the template were made of the exported ones. -/
structure Build.Accounts (b : Build) (t : Topology) (visits : List String) : Prop where
  exported_sublist : b.report.exported.Sublist visits
  delegated_sublist : b.report.delegated.Sublist visits
  ignored_sublist : b.report.ignored.Sublist visits
  perm : (b.report.exported ++ b.report.delegated ++ b.report.ignored).Perm t.elementIds
  nodup : (b.report.exported ++ b.report.delegated ++ b.report.ignored).Nodup
  resources_eq : b.template.resources.map (·.element) = b.report.exported

namespace Topology

variable {t : Topology} {b : Build}

/-- The visited elements are sorted into three lists. -/
theorem idsOf_perm (t : Topology) (visited : List Element) :
    (t.idsOf visited .exported ++ t.idsOf visited .delegated ++ t.idsOf visited .ignored).Perm
      (visited.map Element.id) := by
  induction visited with
  | nil => exact .nil
  | cons element rest ih =>
      simp only [idsOf_cons, List.map_cons]
      cases t.fate element with
      | exported => simpa using ih
      | delegated => simpa using List.perm_middle.trans (by simpa using ih.cons element.id)
      | ignored => exact List.perm_middle.trans (ih.cons element.id)

/-- The order of the visits: the groups in pre-order, then the nodes as they were added. -/
theorem map_id_visitOrder : t.visitOrder.map Element.id =
    (t.topLevelGroups.flatMap t.outline).map (·.id) ++ t.nodes.map (·.id) := by
  simp [visitOrder, Function.comp_def, Element.id]

/-- **Every element is reported exactly once, in the order of the visits**, and the resources
are those of the exported elements, position by position. -/
theorem exists_preOrder_accounts (reachable : t.Reachable) (built : t.build = .ok (some b)) :
    ∃ order, t.PreOrder t.topLevelGroups order ∧
      b.Accounts t (order.map (·.id) ++ t.nodes.map (·.id)) := by
  have wf := reachable.wellFormed
  obtain ⟨contributions, h⟩ := exists_contributions built
  have perm : (b.report.exported ++ b.report.delegated ++ b.report.ignored).Perm t.elementIds := by
    rw [h.exported_eq, h.delegated_eq, h.ignored_eq]
    have visited := wf.visitOrder_perm.map Element.id
    exact (t.idsOf_perm t.visitOrder).trans (visited.trans map_id_elements_perm)
  have nodup : t.elementIds.Nodup := (List.nodup_append.1 wf.ids_nodup).1
  refine ⟨_, wf.preOrder_outlines, ?_⟩
  rw [← map_id_visitOrder]
  exact {
    exported_sublist := h.exported_eq ▸ idsOf_sublist _
    delegated_sublist := h.delegated_eq ▸ idsOf_sublist _
    ignored_sublist := h.ignored_eq ▸ idsOf_sublist _
    perm := perm
    nodup := perm.nodup_iff.2 nodup
    resources_eq := h.map_element_resources }

/-- So it is for a drawing with an element of every kind. -/
theorem exists_accounts_everyKind : ∃ b, (run ∅ everyKind).build = .ok (some b) ∧
    ∃ order, (run ∅ everyKind).PreOrder (run ∅ everyKind).topLevelGroups order ∧
      b.Accounts (run ∅ everyKind)
        (order.map (·.id) ++ (run ∅ everyKind).nodes.map (·.id)) := by
  obtain ⟨b, built⟩ := exists_build_everyKind
  exact ⟨b, built, exists_preOrder_accounts ⟨everyKind, rfl⟩ built⟩

end Topology

end CloudCanvas
