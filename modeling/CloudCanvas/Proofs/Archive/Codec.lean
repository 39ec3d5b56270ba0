import CloudCanvas.Archive.Codec
import CloudCanvas.Proofs.Json.Record

/-!
# Archives come back from their text

Each record is read back from the members that are written for it, whichever of the
parts that may be missing it has, if its properties are not nested too deep.

## Main definitions

* `Properties.Shallow`: values that are nested at most 123 deep.
* `Archive.Shallow`: an archive with shallow properties only.

The main statement is `Archive.parse?_text`.
-/

namespace CloudCanvas

/-! ## Properties and positions -/

namespace Properties

/-- Values that are nested at most 123 deep. -/
def Shallow (properties : Properties) : Prop :=
  ∀ value ∈ properties.values, value.json.depth ≤ 123

instance (properties : Properties) : Decidable properties.Shallow :=
  inferInstanceAs (Decidable (∀ value ∈ properties.values, value.json.depth ≤ 123))

variable {properties : Properties}

theorem shallow_iff_depth_le :
    properties.Shallow ↔ (Json.object (Value.members properties)).depth ≤ propertiesRoom := by
  rw [Json.depth, propertiesRoom, Nat.succ_le_succ_iff, Json.depthMembers_le_iff, Shallow,
    Dict.values, Value.members, List.forall_mem_map, List.forall_mem_map]

/-- The tree of properties that are not empty. -/
def json? (properties : Properties) : Option Json :=
  if properties.isEmpty then none else some (.object (Value.members properties))

theorem member_eq (properties : Properties) :
    properties.member = Json.member? "properties" properties.json? := by
  rw [member, json?]
  split <;> rfl

theorem readable_json? : ∀ json ∈ properties.json?, json.readable = true := by
  intro json mem
  by_cases empty : properties.isEmpty
  · simp [json?, empty] at mem
  · obtain rfl : Json.object (Value.members properties) = json := by simpa [json?, empty] using mem
    exact Value.readable_object properties

end Properties

/-- Shallow properties are read back, whether they are written or not. -/
theorem Parts.properties_eq {parts : Parts} {properties : Properties}
    (found : parts.lookup "properties" = properties.json?) (shallow : properties.Shallow) :
    parts.properties = some properties := by
  rw [Parts.properties]
  refine Parts.withDefault_eq found (fun empty => ?_) fun _ => ?_
  · exact Dict.ext (List.isEmpty_iff.1 empty)
  · rw [Json.within_eq_some_iff]
    exact ⟨Properties.shallow_iff_depth_le.1 shallow, Value.ofMembers?_members properties⟩

theorem Position.ofJson?_json (p : Position) : Position.ofJson? p.json = some p := by
  have members : p.json = .object (Json.recordMembers
      [("x", some (.number (.double p.x))), ("y", some (.number (.double p.y)))]) := rfl
  rw [Position.ofJson?, members, Json.record?_recordMembers fields rfl (by decide)]
  rfl

theorem Position.readable_json (p : Position) : p.json.readable = true := rfl

/-! ## Nodes and groups -/

section Element

variable {id kind container : String} {properties : Properties} {parent : Option String}
  {position : Option Position}

/-- What is written for each field of a node or a group. -/
def elementLayout (id kind : String) (properties : Properties) (container : String)
    (parent : Option String) (position : Option Position) : List (String × Option Json) :=
  [("id", some (.string id)), ("kind", some (.string kind)), ("properties", properties.json?),
    (container, parent.map .string), ("position", position.map Position.json)]

theorem recordMembers_elementLayout :
    Json.recordMembers (elementLayout id kind properties container parent position) =
      [("id", .string id), ("kind", .string kind)] ++ properties.member ++
        Json.member? container (parent.map .string) ++
        Json.member? "position" (position.map Position.json) := by
  simp [elementLayout, Json.recordMembers, Properties.member_eq, Json.member?]

theorem readable_elementLayout :
    (Json.object (Json.recordMembers
      (elementLayout id kind properties container parent position))).readable = true := by
  refine Json.readable_recordMembers ?_
  simp only [elementLayout, List.forall_mem_cons, Option.forall_mem_map]
  exact ⟨by simp [Json.readable], by simp [Json.readable], properties.readable_json?,
    fun _ _ => rfl, fun position _ => position.readable_json, by simp⟩

/-- What is read for each field of a node or a group. -/
structure ElementParts (parts : Parts) (id kind : String) (properties : Properties)
    (container : String) (parent : Option String) (position : Option Position) : Prop where
  id : parts.required "id" Json.string? = some id
  kind : parts.required "kind" Json.string? = some kind
  properties : parts.properties = some properties
  parent : parts.optional container Json.string? = some parent
  position : parts.optional "position" Position.ofJson? = some position

/-- What is written for a node or a group is what is read. -/
theorem elementParts_elementLayout (shallow : properties.Shallow)
    (names : ["id", "kind", "properties", container, "position"].Nodup) :
    ElementParts (Json.recordMembers (elementLayout id kind properties container parent position))
      id kind properties container parent position := by
  have part : ∀ name, (Json.recordMembers
      (elementLayout id kind properties container parent position)).lookup name =
        ((elementLayout id kind properties container parent position).lookup name).join :=
    fun _ => Json.lookup_recordMembers names
  have other : ∀ name ∈ ["id", "kind", "properties"], (container == name) = false := by
    intro name mem
    rw [beq_eq_false_iff_ne]
    rintro rfl
    grind
  constructor
  · exact Parts.required_text (part _)
  · exact Parts.required_text (part _)
  · exact Parts.properties_eq (part _) shallow
  · refine Parts.optional_map .string ((part _).trans ?_) fun _ _ => ⟨Json.noConfusion, rfl⟩
    simp [elementLayout, List.lookup_cons, other]
  · refine Parts.optional_map Position.json ((part _).trans ?_)
      fun p _ => ⟨Json.noConfusion, p.ofJson?_json⟩
    have : ("position" == container) = false := by
      rw [beq_eq_false_iff_ne]
      rintro rfl
      simp_all
    simp [elementLayout, List.lookup_cons, this]

end Element

namespace Node

theorem json_eq (node : Node) :
    node.json = .object (Json.recordMembers (elementLayout node.id node.kind node.properties
      "groupId" node.group node.position)) := by
  rw [json, recordMembers_elementLayout]

theorem readable_json (node : Node) : node.json.readable = true := by
  rw [json_eq]
  exact readable_elementLayout

/-- **A node with shallow properties comes back from its tree.** -/
theorem ofJson?_json {node : Node} (shallow : node.properties.Shallow) :
    ofJson? node.json = some node := by
  obtain ⟨id, kind, properties, group, position⟩ :
      ElementParts _ node.id node.kind node.properties "groupId" node.group node.position :=
    elementParts_elementLayout shallow (by decide)
  rw [json_eq, ofJson?, Json.record?_recordMembers fields rfl (by decide), Option.bind_eq_bind,
    Option.bind_some, id, kind, properties, group, position]
  rfl

end Node

namespace GroupRecord

theorem json_eq (group : GroupRecord) :
    group.json = .object (Json.recordMembers (elementLayout group.id group.kind group.properties
      "parentId" group.parent group.position)) := by
  rw [json, recordMembers_elementLayout]

theorem readable_json (group : GroupRecord) : group.json.readable = true := by
  rw [json_eq]
  exact readable_elementLayout

/-- **A group with shallow properties comes back from its tree.** -/
theorem ofJson?_json {group : GroupRecord} (shallow : group.properties.Shallow) :
    ofJson? group.json = some group := by
  obtain ⟨id, kind, properties, parent, position⟩ :
      ElementParts _ group.id group.kind group.properties "parentId" group.parent
        group.position :=
    elementParts_elementLayout shallow (by decide)
  rw [json_eq, ofJson?, Json.record?_recordMembers fields rfl (by decide), Option.bind_eq_bind,
    Option.bind_some, id, kind, properties, parent, position]
  rfl

end GroupRecord

/-! ## Links -/

namespace Link

/-- What is written for each field of a link. -/
def layout (link : Link) : List (String × Option Json) :=
  [("id", some (.string link.id)), ("source", some (.string link.source)),
    ("target", some (.string link.target)), ("properties", link.properties.json?)]

theorem json_eq (link : Link) : link.json = .object (Json.recordMembers link.layout) := by
  simp [json, layout, Json.recordMembers, Properties.member_eq, Json.member?]

theorem readable_json (link : Link) : link.json.readable = true := by
  rw [json_eq]
  refine Json.readable_recordMembers ?_
  simp only [layout, List.forall_mem_cons]
  refine ⟨?_, ?_, ?_, link.properties.readable_json?, by simp⟩ <;>
  · rintro _ ⟨⟩
    rfl

/-- **A link with shallow properties comes back from its tree.** -/
theorem ofJson?_json {link : Link} (shallow : link.properties.Shallow) :
    ofJson? link.json = some link := by
  have names : (link.layout.map Prod.fst).Nodup :=
    show ["id", "source", "target", "properties"].Nodup by decide
  have part : ∀ name, (Json.recordMembers link.layout).lookup name =
      (link.layout.lookup name).join := fun _ => Json.lookup_recordMembers names
  have properties : Parts.properties (Json.recordMembers link.layout) = some link.properties :=
    Parts.properties_eq (part _) shallow
  rw [json_eq, ofJson?, Json.record?_recordMembers fields rfl (by decide), Option.bind_eq_bind,
    Option.bind_some, Parts.required_text (part "id"), Parts.required_text (part "source"),
    Parts.required_text (part "target"), properties]
  rfl

end Link

/-! ## Archives -/

namespace Archive

/-- An archive with shallow properties only. -/
structure Shallow (a : Archive) : Prop where
  nodes : ∀ node ∈ a.nodes, node.properties.Shallow
  groups : ∀ group ∈ a.groups, group.properties.Shallow
  links : ∀ link ∈ a.links, link.properties.Shallow

theorem readable_json (a : Archive) : a.json.readable = true := by
  have nodes : Json.readableItems (a.nodes.map Node.json) = true :=
    Json.readableItems_iff.2 (List.forall_mem_map.2 fun node _ => node.readable_json)
  have groups : Json.readableItems (a.groups.map GroupRecord.json) = true :=
    Json.readableItems_iff.2 (List.forall_mem_map.2 fun group _ => group.readable_json)
  have links : Json.readableItems (a.links.map Link.json) = true :=
    Json.readableItems_iff.2 (List.forall_mem_map.2 fun link _ => link.readable_json)
  simp [json, Json.readable, Json.readableMembers, nodes, groups, links]

/-- A shallow archive comes back from its tree. -/
theorem ofJson?_json {a : Archive} (shallow : a.Shallow) : ofJson? a.json = some a := by
  have members : a.json = .object (Json.recordMembers
      [("nodes", some (.array (a.nodes.map Node.json))),
        ("groups", some (.array (a.groups.map GroupRecord.json))),
        ("links", some (.array (a.links.map Link.json)))]) := rfl
  have nodes := Json.items?_map fun node mem => Node.ofJson?_json (shallow.nodes node mem)
  have groups := Json.items?_map fun group mem =>
    GroupRecord.ofJson?_json (shallow.groups group mem)
  have links := Json.items?_map fun link mem => Link.ofJson?_json (shallow.links link mem)
  rw [ofJson?, members, Json.record?_recordMembers fields rfl (by decide)]
  simp [Parts.withDefault, Json.recordMembers, Json.member?, List.lookup_cons, nodes, groups, links]

/-- **A shallow archive comes back from its text.** -/
theorem parse?_text {a : Archive} (shallow : a.Shallow) : parse? a.text = some a := by
  rw [parse?, text, Json.parse?_compact a.readable_json]
  exact ofJson?_json shallow

end Archive

end CloudCanvas
