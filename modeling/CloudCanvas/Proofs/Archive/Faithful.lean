import CloudCanvas.Proofs.Archive.Codec
import CloudCanvas.Proofs.Json.Pretty

/-!
# Which archives come back from their text

Any archive can be written, but only one whose properties are shallow can be read: the
writer knows no bound on nesting and the reader does.  What is read is shallow, so it can
be written and read again.

The main statements are `Archive.parse?_text_iff_shallow` and `Archive.shallow_of_parse?`.
-/

namespace CloudCanvas

/-! ## Properties -/

namespace Parts

variable {parts : Parts} {properties : Properties}

/-- Properties that are read are shallow. -/
theorem shallow_of_properties (h : parts.properties = some properties) :
    properties.Shallow := by
  rcases eq_or_exists_of_withDefault h with rfl | ⟨json, read⟩
  · simp [Properties.Shallow, EmptyCollection.emptyCollection, Dict.empty, Dict.values]
  · obtain ⟨room, read⟩ := Json.within_eq_some_iff.1 read
    cases json with
    | object members =>
        rw [Json.depth, propertiesRoom, Nat.succ_le_succ_iff] at room
        rw [Properties.shallow_iff_depth_le, Json.depth, propertiesRoom, Nat.succ_le_succ_iff]
        exact Value.depthMembers_le_of_ofMembers? members read (Nat.zero_le _) room
    | _ => cases read

/-- Properties that have been written are shallow if anything is read of them. -/
theorem shallow_of_recordMembers {fields : List Field} {layout : List (String × Option Json)}
    {read : Properties} (names : layout.map Prod.fst = fields.map (·.name))
    (nodup : (fields.map (·.name)).Nodup)
    (written : layout.lookup "properties" = some properties.json?)
    (record : Json.record? fields (.object (Json.recordMembers layout)) = some parts)
    (h : parts.properties = some read) : properties.Shallow := by
  rw [Json.record?_recordMembers fields names nodup] at record
  cases record
  rw [Parts.properties, withDefault, Json.lookup_recordMembers (names ▸ nodup), written,
    Option.join_some, Properties.json?] at h
  by_cases empty : properties.isEmpty
  · intro value mem
    simp [Dict.values, List.isEmpty_iff.1 empty] at mem
  · simp only [empty, Bool.false_eq_true, if_false, Json.within] at h
    split at h
    · exact Properties.shallow_iff_depth_le.2 ‹_›
    · cases h

end Parts

/-! ## Records -/

namespace Node

theorem properties_of_ofJson? {json : Json} {node : Node} (h : ofJson? json = some node) :
    ∃ parts, json.record? fields = some parts ∧ parts.properties = some node.properties := by
  simp only [ofJson?, Option.bind_eq_bind, Option.bind_eq_some_iff] at h
  obtain ⟨parts, record, id, -, kind, -, properties, read, group, -, position, -, same⟩ := h
  cases same
  exact ⟨parts, record, read⟩

/-- A node that is read back at all has shallow properties. -/
theorem shallow_of_ofJson?_json {node other : Node} (h : ofJson? node.json = some other) :
    node.properties.Shallow := by
  obtain ⟨parts, record, read⟩ := properties_of_ofJson? h
  rw [json_eq] at record
  exact Parts.shallow_of_recordMembers rfl (by decide) rfl record read

end Node

namespace GroupRecord

theorem properties_of_ofJson? {json : Json} {group : GroupRecord}
    (h : ofJson? json = some group) :
    ∃ parts, json.record? fields = some parts ∧ parts.properties = some group.properties := by
  simp only [ofJson?, Option.bind_eq_bind, Option.bind_eq_some_iff] at h
  obtain ⟨parts, record, id, -, kind, -, properties, read, parent, -, position, -, same⟩ := h
  cases same
  exact ⟨parts, record, read⟩

/-- A group that is read back at all has shallow properties. -/
theorem shallow_of_ofJson?_json {group other : GroupRecord}
    (h : ofJson? group.json = some other) : group.properties.Shallow := by
  obtain ⟨parts, record, read⟩ := properties_of_ofJson? h
  rw [json_eq] at record
  exact Parts.shallow_of_recordMembers rfl (by decide) rfl record read

end GroupRecord

namespace Link

theorem properties_of_ofJson? {json : Json} {link : Link} (h : ofJson? json = some link) :
    ∃ parts, json.record? fields = some parts ∧ parts.properties = some link.properties := by
  simp only [ofJson?, Option.bind_eq_bind, Option.bind_eq_some_iff] at h
  obtain ⟨parts, record, id, -, source, -, target, -, properties, read, same⟩ := h
  cases same
  exact ⟨parts, record, read⟩

/-- A link that is read back at all has shallow properties. -/
theorem shallow_of_ofJson?_json {link other : Link} (h : ofJson? link.json = some other) :
    link.properties.Shallow := by
  obtain ⟨parts, record, read⟩ := properties_of_ofJson? h
  rw [json_eq] at record
  exact Parts.shallow_of_recordMembers rfl (by decide) rfl record read

end Link

/-! ## Archives -/

namespace Archive

variable {a b : Archive}

theorem rows_of_ofJson? {json : Json} (h : ofJson? json = some a) :
    ∃ parts, json.record? fields = some parts ∧
      parts.withDefault "nodes" [] (Json.items? Node.ofJson?) = some a.nodes ∧
      parts.withDefault "groups" [] (Json.items? GroupRecord.ofJson?) = some a.groups ∧
      parts.withDefault "links" [] (Json.items? Link.ofJson?) = some a.links := by
  simp only [ofJson?, Option.bind_eq_bind, Option.bind_eq_some_iff] at h
  obtain ⟨parts, record, nodes, readNodes, groups, readGroups, links, readLinks, same⟩ := h
  cases same
  exact ⟨parts, record, readNodes, readGroups, readLinks⟩

/-- **What is read from a text is shallow.** -/
theorem shallow_of_parse? {s : String} (h : parse? s = some a) : a.Shallow := by
  obtain ⟨json, -, read⟩ := Option.bind_eq_some_iff.1 h
  obtain ⟨parts, -, nodes, groups, links⟩ := rows_of_ofJson? read
  constructor
  · refine Parts.forall_of_withDefault nodes fun item node read => ?_
    obtain ⟨parts, -, properties⟩ := Node.properties_of_ofJson? read
    exact Parts.shallow_of_properties properties
  · refine Parts.forall_of_withDefault groups fun item group read => ?_
    obtain ⟨parts, -, properties⟩ := GroupRecord.properties_of_ofJson? read
    exact Parts.shallow_of_properties properties
  · refine Parts.forall_of_withDefault links fun item link read => ?_
    obtain ⟨parts, -, properties⟩ := Link.properties_of_ofJson? read
    exact Parts.shallow_of_properties properties

/-- An archive of whose tree anything is read is shallow. -/
theorem shallow_of_ofJson?_json (h : ofJson? a.json = some b) : a.Shallow := by
  obtain ⟨parts, record, nodes, groups, links⟩ := rows_of_ofJson? h
  have written : a.json = .object (Json.recordMembers
      [("nodes", some (.array (a.nodes.map Node.json))),
        ("groups", some (.array (a.groups.map GroupRecord.json))),
        ("links", some (.array (a.links.map Link.json)))]) := rfl
  rw [written, Json.record?_recordMembers fields rfl (by decide)] at record
  cases record
  constructor
  · intro node mem
    obtain ⟨other, read⟩ := Json.exists_of_items? nodes _ (List.mem_map_of_mem mem)
    exact Node.shallow_of_ofJson?_json read
  · intro group mem
    obtain ⟨other, read⟩ := Json.exists_of_items? groups _ (List.mem_map_of_mem mem)
    exact GroupRecord.shallow_of_ofJson?_json read
  · intro link mem
    obtain ⟨other, read⟩ := Json.exists_of_items? links _ (List.mem_map_of_mem mem)
    exact Link.shallow_of_ofJson?_json read

/-- Both texts of an archive are read alike. -/
theorem parse?_prettyText_eq (a : Archive) : parse? a.prettyText = parse? a.text := by
  rw [parse?, parse?, prettyText, text, Json.parse?_pretty_eq]

/-- **An archive that is too deep is not read at all.** -/
theorem parse?_text_eq_none (deep : ¬ a.Shallow) : parse? a.text = none := by
  rw [parse?, text, Json.parse?_compact a.readable_json]
  refine Option.eq_none_iff_forall_ne_some.2 fun b read => deep ?_
  exact shallow_of_ofJson?_json read

/-- **Exactly the shallow archives come back from their texts**, compact or spread.  Of the
others neither text can be read, and whatever is read comes back from its own texts. -/
theorem parse?_text_iff_shallow (a : Archive) :
    (parse? a.text = some a ∧ parse? a.prettyText = some a ↔ a.Shallow) ∧
      (¬ a.Shallow → parse? a.text = none ∧ parse? a.prettyText = none) ∧
        ∀ s, parse? s = some a → parse? a.text = some a ∧ parse? a.prettyText = some a := by
  rw [a.parse?_prettyText_eq]
  refine ⟨⟨fun h => shallow_of_parse? h.1, fun shallow => ?_⟩, fun deep => ?_, fun s read => ?_⟩
  · exact ⟨parse?_text shallow, parse?_text shallow⟩
  · exact ⟨parse?_text_eq_none deep, parse?_text_eq_none deep⟩
  · have shallow := shallow_of_parse? read
    exact ⟨parse?_text shallow, parse?_text shallow⟩

/-- A property of 123 arrays in each other is read back, one of 124 is not. -/
theorem parse?_text_iff_shallow_nested :
    let nested (n : ℕ) : Value := n.repeat (fun v => .array [v]) .null
    let stored (n : ℕ) : Archive :=
      ⟨[⟨"note", "text-note", Dict.insert ∅ "body" (nested n), none, none⟩], [], []⟩
    (parse? (stored 123).text = some (stored 123) ∧
      parse? (stored 123).prettyText = some (stored 123)) ∧
        parse? (stored 124).text = none ∧ parse? (stored 124).prettyText = none := by
  intro nested stored
  have shallow : (stored 123).Shallow := by
    refine ⟨List.forall_mem_singleton.2 ?_, by simp [stored], by simp [stored]⟩
    decide +kernel
  have deep : ¬ (stored 124).Shallow := by
    intro shallow
    have note := List.forall_mem_singleton.1 shallow.nodes
    revert note
    decide +kernel
  exact ⟨(parse?_text_iff_shallow (stored 123)).1.2 shallow,
    (parse?_text_iff_shallow (stored 124)).2.1 deep⟩

end Archive

end CloudCanvas
