import CloudCanvas.Proofs.Export.Visit
import CloudCanvas.Proofs.Topology.Outline
import CloudCanvas.Proofs.Topology.Reachable

/-!
# Which drawings can be exported

The elements are visited in an order that has each of them once, so a template is built
exactly if every element follows the rule of its kind and no two share the scope of their
parameters.

The main statement is `Topology.exists_build_iff_exportable`.
-/

namespace CloudCanvas

namespace Topology

variable {t : Topology}

namespace WellFormed

variable (wf : t.WellFormed)
include wf

/-- **Every element is visited exactly once.** -/
theorem visitOrder_perm : t.visitOrder.Perm t.elements :=
  (wf.outlines_perm.map _).append_right _

theorem nodup_elements : t.elements.Nodup := by
  refine List.Nodup.of_map Element.id ?_
  have ids : t.elements.map Element.id = t.groups.map (·.id) ++ t.nodes.map (·.id) := by
    simp [elements, Function.comp_def, Element.id]
  rw [ids]
  exact List.nodup_append_comm.1 (List.nodup_append.1 wf.ids_nodup).1

/-- A group is delegated if it is a subnet directly inside a network. -/
theorem isDelegated_iff {group : Group} : t.isDelegated group = true ↔
    group.kind = ResourceKind.subnet.tag ∧
      ∃ network, t.IsDirectlyInside (.group group) .virtualNetwork network := by
  constructor
  · intro delegated
    have kind := kind_of_isDelegated delegated
    refine ⟨kind, ?_⟩
    rw [isDelegated, groupRole, kind, ResourceKind.ofTag?_tag] at delegated
    simp only at delegated
    split at delegated
    · rename_i network around
      obtain ⟨mem, parent⟩ := wf.parentOf_eq_some_iff.1 around
      exact ⟨network, mem, parent, by simpa using delegated⟩
    · cases delegated
  · rintro ⟨kind, network, mem, parent, outer⟩
    have around : t.parentOf (.group group) = some network :=
      wf.parentOf_eq_some_iff.2 ⟨mem, parent⟩
    rw [isDelegated, groupRole, kind, ResourceKind.ofTag?_tag, around]
    simpa using outer

/-- A visit of a group demands the rule of its kind. -/
theorem accepts_group_iff {group : Group} (h : group ∈ t.groups) :
    t.Accepts (.group group) ↔
      ∀ kind : ResourceKind, group.kind = kind.tag → t.GroupRule group kind := by
  simp only [Accepts, Element.group.injEq, exists_eq_left', wf.isDelegated_iff,
    wf.contributes_group_iff h, Element.kind]
  constructor
  · rintro (⟨subnet, inside⟩ | rule) kind eq
    · obtain rfl := ResourceKind.tag_injective (subnet.symm.trans eq)
      exact inside
    · obtain ⟨rfl, network⟩ := rule kind eq
      exact network
  · intro rule
    by_cases subnet : group.kind = ResourceKind.subnet.tag
    · exact .inl ⟨subnet, rule .subnet subnet⟩
    · refine .inr fun kind eq => ?_
      have := rule kind eq
      cases kind with
      | virtualNetwork => exact ⟨rfl, this⟩
      | subnet => exact absurd eq subnet
      | _ => exact this.elim

/-- A visit of a node demands the rule of its kind. -/
theorem accepts_node_iff {node : Node} : t.Accepts (.node node) ↔
    ∀ kind : ResourceKind, node.kind = kind.tag → t.NodeRule node kind := by
  simp [Accepts, wf.contributes_node_iff, Element.kind]

/-- The visits succeed for exactly the drawings that follow the rules. -/
theorem exists_visits_iff :
    (∃ draft, t.visitOrder.foldlM (Draft.visit t) Draft.start = .ok draft) ↔ t.Exportable := by
  have perm := wf.visitOrder_perm
  have scopes := (perm.filter (·.HasParameters)).map (fun element => parameterScope element.id)
  have nodup : (t.elements.filter (·.HasParameters)).Nodup := wf.nodup_elements.filter _
  rw [Draft.foldlM_visit_iff, scopes.nodup_iff, List.nodup_map_iff_inj_on nodup]
  simp only [List.mem_filter, decide_eq_true_eq, and_imp]
  constructor
  · rintro ⟨accepts, -, shared⟩
    refine ⟨fun group mem => ?_, fun node mem => ?_, fun element mem other mem' has has' =>
      shared element mem has other mem' has'⟩
    · exact (wf.accepts_group_iff mem).1 (accepts _ (perm.mem_iff.2 (group_mem_elements mem)))
    · exact wf.accepts_node_iff.1 (accepts _ (perm.mem_iff.2 (node_mem_elements mem)))
  · rintro ⟨groups, nodes, shared⟩
    refine ⟨fun element visited => ?_, fun _ _ _ => List.not_mem_nil,
      fun element mem has other mem' has' => shared element mem other mem' has has'⟩
    rcases mem_elements.1 (perm.mem_iff.1 visited) with ⟨group, mem, rfl⟩ | ⟨node, mem, rfl⟩
    · exact (wf.accepts_group_iff mem).2 (groups group mem)
    · exact wf.accepts_node_iff.2 (nodes node mem)

end WellFormed

/-- **A template is built for exactly the drawings that follow the rules.** -/
theorem exists_build_iff_exportable (reachable : t.Reachable) (drawn : t.isEmpty = false) :
    (∃ build, t.build = .ok (some build)) ↔ t.Exportable := by
  rw [← reachable.wellFormed.exists_visits_iff, build, drawn]
  constructor
  · rintro ⟨built, h⟩
    obtain ⟨draft, visits, -⟩ := bind_eq_ok_iff.1 h
    exact ⟨draft, visits⟩
  · rintro ⟨draft, visits⟩
    exact ⟨_, bind_eq_ok_iff.2 ⟨draft, visits, rfl⟩⟩

/-- A network with one subnet that has no range of its own can be exported. -/
theorem exists_build_hub :
    let edits : List Edit := [
      .addGroup ⟨⟨"hub", "virtual-network", ∅, none, none⟩, [], []⟩,
      .addGroup ⟨⟨"front", "subnet", ∅, some "hub", none⟩, [], []⟩]
    ∃ build, (run ∅ edits).build = .ok (some build) := by
  intro edits
  let hub : Group := ⟨⟨"hub", "virtual-network", ∅, none, none⟩, ["front"], []⟩
  let front : Group := ⟨⟨"front", "subnet", ∅, some "hub", none⟩, [], []⟩
  have drawn : run ∅ edits = ⟨[], [hub, front], []⟩ := by decide
  refine (exists_build_iff_exportable ⟨edits, rfl⟩ (by decide)).2 ?_
  rw [drawn]
  refine ⟨fun group mem kind eq => ?_, by simp, ?_⟩
  · rcases List.mem_pair.1 mem with rfl | rfl
    · obtain rfl : ResourceKind.virtualNetwork = kind := ResourceKind.tag_injective eq
      refine ⟨by simp [hub, Element.TextOrAbsent, Element.properties], by decide, ?_⟩
      intro ordinal subnet found
      have one : (⟨[], [hub, front], []⟩ : Topology).subnetsIn hub = [front] := by decide
      rw [one] at found
      obtain ⟨rfl, rfl⟩ : ordinal = 0 ∧ front = subnet := by
        simpa [List.getElem?_singleton] using found
      exact .inr ⟨rfl, ⟨167772160, 16⟩, by decide, by decide, by decide⟩
    · obtain rfl : ResourceKind.subnet = kind := ResourceKind.tag_injective eq
      exact ⟨hub, by simp, rfl, rfl⟩
  · decide

end Topology

end CloudCanvas
