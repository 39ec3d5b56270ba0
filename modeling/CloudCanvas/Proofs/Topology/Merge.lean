import CloudCanvas.Proofs.Dict
import CloudCanvas.Proofs.Fold
import CloudCanvas.Proofs.Topology.Properties
import CloudCanvas.Topology.Batch

/-!
# Properties that are set together

Properties that are set one after another come to one change: every name that is mentioned
has its new value, or nothing if it was given none, and every other name keeps what it had.
No name is mentioned twice, so the order does not matter.

## Main definitions

* `Properties.merge`: properties with changes made to them.
* `Topology.Amends`: one element of a drawing has changes made to its properties.

The main statements are `Topology.foldlM_setProperty_of_perm` and
`Topology.WellFormed.amends_of_mem`.
-/

namespace CloudCanvas

namespace Properties

variable {properties changes : Properties} {entries : List (String × Value)} {name : String}

/-- **Properties with changes made to them**: those that the changes do not mention, and the
changes that give a value. -/
def merge (properties changes : Properties) : Properties :=
  Dict.ofList ((Dict.filter (fun name _ => !changes.contains name) properties).entries ++
    changes.withoutNulls.entries)

theorem get?_set {value : Value} {key : String} : (properties.set key value).get? name =
    if name = key then (if value.isNull then none else some value) else properties.get? name := by
  rw [set]
  cases value.isNull
  · exact Dict.get?_insert properties key value name
  · exact Dict.get?_erase properties key name

/-- A name that is mentioned has its new value, or nothing; any other keeps what it had. -/
theorem get?_merge : (properties.merge changes).get? name =
    match changes.get? name with
    | none => properties.get? name
    | some value => if value.isNull then none else some value := by
  let kept : Properties := Dict.filter (fun name _ => !changes.contains name) properties
  have apart : ∀ key ∈ kept.entries.map Prod.fst,
      ∀ other ∈ changes.withoutNulls.entries.map Prod.fst, key ≠ other := by
    intro key hKey other hOther eq
    subst eq
    obtain ⟨entry, mem, rfl⟩ := List.mem_map.1 hKey
    obtain ⟨change, mem', eq⟩ := List.mem_map.1 hOther
    have mentioned := Dict.mem_entries_iff.1 (List.mem_filter.1 mem').1
    simpa [Dict.contains, ← eq, mentioned] using (List.mem_filter.1 mem).2
  have nodup : ((kept.entries ++ changes.withoutNulls.entries).map Prod.fst).Nodup := by
    rw [List.map_append, List.nodup_append]
    exact ⟨kept.nodup_keys, changes.withoutNulls.nodup_keys, apart⟩
  calc (properties.merge changes).get? name
    _ = (kept.get? name).or (changes.withoutNulls.get? name) := by
      rw [merge, Dict.get?_ofList nodup, List.lookup_append]
      rfl
    _ = _ := by
      rw [Dict.get?_filter, withoutNulls, Dict.get?_filter]
      cases mentioned : changes.get? name with
      | none => cases Dict.get? properties name <;> simp [Dict.contains, mentioned]
      | some value => cases null : value.isNull <;> simp [Dict.contains, mentioned, null]

/-- Of changes made one after another to different names each counts. -/
theorem get?_foldl_set (nodup : (entries.map Prod.fst).Nodup) :
    (entries.foldl (fun properties entry => set properties entry.1 entry.2) properties).get? name =
      match entries.lookup name with
      | none => properties.get? name
      | some value => if value.isNull then none else some value := by
  induction entries generalizing properties with
  | nil => rfl
  | cons entry entries ih =>
      obtain ⟨key, value⟩ := entry
      rw [List.map_cons, List.nodup_cons] at nodup
      rw [List.foldl_cons, ih nodup.2, List.lookup_cons]
      by_cases same : name = key
      · subst same
        have alone : entries.lookup name = none := by
          rw [← Option.not_isSome_iff_eq_none, Option.isSome_iff_exists]
          rintro ⟨other, found⟩
          exact nodup.1 (List.mem_map.2 ⟨_, mem_of_lookup_eq_some found, rfl⟩)
        simp [alone, get?_set]
      · simp [beq_false_of_ne same, get?_set, same]

/-- Changes made one after another, in whatever order, are made together. -/
theorem foldl_set_of_perm (order : entries.Perm changes.entries) :
    entries.foldl (fun properties entry => set properties entry.1 entry.2) properties =
      properties.merge changes := by
  have nodup : (entries.map Prod.fst).Nodup := (order.map _).nodup_iff.2 changes.nodup_keys
  refine Dict.ext_get? fun name => ?_
  have same : entries.lookup name = changes.get? name := by
    refine Option.ext fun value => ?_
    rw [lookup_eq_some_iff_mem nodup, order.mem_iff, Dict.mem_entries_iff]
  rw [get?_foldl_set nodup, get?_merge, same]

end Properties

namespace Topology

variable {t t' : Topology} {id : String} {changes : Properties} {entries : List (String × Value)}

/-! ## One change after another -/

theorem isSome_properties?_iff : (t.properties? id).isSome = true ↔ id ∈ t.ids := by
  rw [mem_ids, ← isSome_element?_iff, ← isSome_link?_iff, properties?]
  cases t.element? id <;> simp

theorem ids_updateProperties {change : Properties → Properties} :
    (t.updateProperties id change).ids = t.ids := by
  have links : (t.updateProperties id change).links = t.links.map (Link.revise id change) := rfl
  simp [ids, elementIds, nodes_updateProperties, groups_updateProperties, links,
    Function.comp_def]

theorem updateProperties_updateProperties {first second : Properties → Properties} :
    (t.updateProperties id first).updateProperties id second =
      t.updateProperties id (fun properties => second (first properties)) := by
  simp only [updateProperties, List.map_map, Topology.mk.injEq]
  refine ⟨?_, ?_, ?_⟩
  all_goals
    refine List.map_congr_left fun element _ => ?_
    by_cases named : element.id = id <;> simp [named]

theorem updateProperties_of_unchanged {change : Properties → Properties}
    (same : ∀ properties, change properties = properties) :
    t.updateProperties id change = t := by
  simp [updateProperties, same]

theorem setProperty_of_mem (named : id ∈ t.ids) (name : String) (value : Value) :
    t.setProperty id name value = .ok (t.updateProperties id (·.set name value)) := by
  obtain ⟨properties, found⟩ := Option.isSome_iff_exists.1 (isSome_properties?_iff.2 named)
  rw [setProperty_eq, found]

theorem setProperty_of_absent (absent : id ∉ t.ids) (name : String) (value : Value) :
    t.setProperty id name value = .error (.unknownElement id) := by
  rw [← isSome_properties?_iff, Option.not_isSome_iff_eq_none] at absent
  rw [setProperty_eq, absent]

/-- Properties of what is there are set one after another, whatever they are. -/
theorem foldlM_setProperty_of_mem (named : id ∈ t.ids) :
    entries.foldlM (fun t change => t.setProperty id change.1 change.2) t =
      .ok (t.updateProperties id fun properties =>
        entries.foldl (fun properties entry => properties.set entry.1 entry.2) properties) := by
  induction entries generalizing t with
  | nil => exact congrArg Except.ok (updateProperties_of_unchanged fun _ => rfl).symm
  | cons entry entries ih =>
      have still : id ∈ (t.updateProperties id (·.set entry.1 entry.2)).ids := by
        rwa [ids_updateProperties]
      rw [List.foldlM_cons, setProperty_of_mem named, ok_bind, ih still,
        updateProperties_updateProperties]
      rfl

/-- **Changes that are made in any order are made together.** -/
theorem foldlM_setProperty_of_perm (named : id ∈ t.ids) (order : entries.Perm changes.entries) :
    entries.foldlM (fun t change => t.setProperty id change.1 change.2) t =
      .ok (t.updateProperties id (·.merge changes)) := by
  rw [foldlM_setProperty_of_mem named]
  simp only [Properties.foldl_set_of_perm order]

/-- Properties of what is not there are refused at the first of them. -/
theorem foldlM_setProperty_of_absent (absent : id ∉ t.ids) (some_entry : entries ≠ []) :
    entries.foldlM (fun t change => t.setProperty id change.1 change.2) t =
      .error (.unknownElement id) := by
  cases entries with
  | nil => exact absurd rfl some_entry
  | cons entry entries =>
      rw [List.foldlM_cons, setProperty_of_absent absent]
      rfl

/-! ## One element of the drawing -/

/-- **One element of a drawing has changes made to its properties**, and all else is as it was. -/
inductive Amends (id : String) (changes : Properties) : Topology → Topology → Prop
  | node {before after : List Node} {node : Node} {groups : List Group} {links : List Link}
      (named : node.id = id) :
      Amends id changes ⟨before ++ node :: after, groups, links⟩
        ⟨before ++ { node with properties := node.properties.merge changes } :: after,
          groups, links⟩
  | group {nodes : List Node} {before after : List Group} {group : Group} {links : List Link}
      (named : group.id = id) :
      Amends id changes ⟨nodes, before ++ group :: after, links⟩
        ⟨nodes, before ++ { group with properties := group.properties.merge changes } :: after,
          links⟩
  | link {nodes : List Node} {groups : List Group} {before after : List Link} {link : Link}
      (named : link.id = id) :
      Amends id changes ⟨nodes, groups, before ++ link :: after⟩
        ⟨nodes, groups,
          before ++ { link with properties := link.properties.merge changes } :: after⟩

namespace WellFormed

variable (wf : t.WellFormed) (change : Properties → Properties)
include wf

/-- A change of what has the id of a node is a change of the node. -/
private theorem updateProperties_node {node : Node} (h : node ∈ t.nodes) :
    ∃ before after, t.nodes = before ++ node :: after ∧ t.updateProperties node.id change =
      ⟨before ++ { node with properties := change node.properties } :: after, t.groups,
        t.links⟩ := by
  obtain ⟨before, after, split⟩ := List.append_of_mem h
  have nodes : t.nodes.map (Node.revise node.id change) =
      before ++ node.revise node.id change :: after := by
    rw [split]
    exact map_of_split (fun _ ne => if_neg ne) (split ▸ wf.nodeIds_nodup)
  have groups : t.groups.map (Group.revise node.id change) = t.groups :=
    map_of_absent (fun _ ne => if_neg ne) fun _ hg => (wf.node_ne_group h hg).symm
  have links : t.links.map (Link.revise node.id change) = t.links :=
    map_of_absent (fun _ ne => if_neg ne) fun _ hl eq =>
      wf.linkId_notMem_elementIds hl (mem_elementIds.2 (.inl ⟨node, h, eq.symm⟩))
  refine ⟨before, after, split, ?_⟩
  rw [show { node with properties := change node.properties } = node.revise node.id change from
    (if_pos rfl).symm, ← nodes]
  exact congrArg₂ _ groups links

/-- A change of what has the id of a group is a change of the group. -/
private theorem updateProperties_group {group : Group} (h : group ∈ t.groups) :
    ∃ before after, t.groups = before ++ group :: after ∧ t.updateProperties group.id change =
      ⟨t.nodes, before ++ { group with properties := change group.properties } :: after,
        t.links⟩ := by
  obtain ⟨before, after, split⟩ := List.append_of_mem h
  have nodes : t.nodes.map (Node.revise group.id change) = t.nodes :=
    map_of_absent (fun _ ne => if_neg ne) fun _ hn => wf.node_ne_group hn h
  have groups : t.groups.map (Group.revise group.id change) =
      before ++ group.revise group.id change :: after := by
    rw [split]
    exact map_of_split (fun _ ne => if_neg ne) (split ▸ wf.groupIds_nodup)
  have links : t.links.map (Link.revise group.id change) = t.links :=
    map_of_absent (fun _ ne => if_neg ne) fun _ hl eq =>
      wf.linkId_notMem_elementIds hl (mem_elementIds.2 (.inr ⟨group, h, eq.symm⟩))
  refine ⟨before, after, split, ?_⟩
  rw [show { group with properties := change group.properties } = group.revise group.id change from
    (if_pos rfl).symm, ← groups]
  exact congrArg₂ (fun nodes links => Topology.mk nodes _ links) nodes links

/-- A change of what has the id of a link is a change of the link. -/
private theorem updateProperties_link {link : Link} (h : link ∈ t.links) :
    ∃ before after, t.links = before ++ link :: after ∧ t.updateProperties link.id change =
      ⟨t.nodes, t.groups,
        before ++ { link with properties := change link.properties } :: after⟩ := by
  obtain ⟨before, after, split⟩ := List.append_of_mem h
  have absent := wf.linkId_notMem_elementIds h
  have nodes : t.nodes.map (Node.revise link.id change) = t.nodes :=
    map_of_absent (fun _ ne => if_neg ne) fun node hn eq =>
      absent (mem_elementIds.2 (.inl ⟨node, hn, eq⟩))
  have groups : t.groups.map (Group.revise link.id change) = t.groups :=
    map_of_absent (fun _ ne => if_neg ne) fun group hg eq =>
      absent (mem_elementIds.2 (.inr ⟨group, hg, eq⟩))
  have links : t.links.map (Link.revise link.id change) =
      before ++ link.revise link.id change :: after := by
    rw [split]
    exact map_of_split (fun _ ne => if_neg ne) (split ▸ wf.linkIds_nodup)
  refine ⟨before, after, split, ?_⟩
  rw [show { link with properties := change link.properties } = link.revise link.id change from
    (if_pos rfl).symm, ← links]
  exact congrArg₂ (fun nodes groups => Topology.mk nodes groups _) nodes groups

/-- **Changes to what has an id are changes to one element.** -/
theorem amends_of_mem (named : id ∈ t.ids) (changes : Properties) :
    Amends id changes t (t.updateProperties id (·.merge changes)) := by
  rcases mem_ids.1 named with element | ⟨link, h, rfl⟩
  · rcases mem_elementIds.1 element with ⟨node, h, rfl⟩ | ⟨group, h, rfl⟩
    · obtain ⟨before, after, split, updated⟩ := wf.updateProperties_node (·.merge changes) h
      rw [updated]
      have amends : Amends node.id changes ⟨before ++ node :: after, t.groups, t.links⟩ _ :=
        .node rfl
      rwa [← split] at amends
    · obtain ⟨before, after, split, updated⟩ := wf.updateProperties_group (·.merge changes) h
      rw [updated]
      have amends : Amends group.id changes ⟨t.nodes, before ++ group :: after, t.links⟩ _ :=
        .group rfl
      rwa [← split] at amends
  · obtain ⟨before, after, split, updated⟩ := wf.updateProperties_link (·.merge changes) h
    rw [updated]
    have amends : Amends link.id changes ⟨t.nodes, t.groups, before ++ link :: after⟩ _ :=
      .link rfl
    rwa [← split] at amends

end WellFormed

end Topology

end CloudCanvas
