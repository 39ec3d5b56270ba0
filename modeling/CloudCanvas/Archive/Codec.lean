import CloudCanvas.Archive
import CloudCanvas.Json.Parser
import CloudCanvas.Json.Printer
import CloudCanvas.Json.Record

/-!
# Archives as JSON text

A record is an object of its fields in their order, without properties if there
are none and without a group or a position if it has none.  An archive is read
from at most 127 arrays and objects nested in each other, itself included, which
leaves 123 for the value of a property.

## Main definitions

* `Archive.json`, `Archive.ofJson?`: records as trees.
* `Archive.text`, `Archive.prettyText`, `Archive.parse?`: records as text.
-/

namespace CloudCanvas

/-- How deep the properties of a stored element may be. -/
def propertiesRoom : Nat := 124

/-- The member for properties, if there are any. -/
def Properties.member (properties : Properties) : List (String × Json) :=
  if properties.isEmpty then []
  else [("properties", .object (Value.members properties))]

/-- A part with properties. -/
def Parts.properties (parts : Parts) : Option Properties :=
  parts.withDefault "properties" ∅ (Json.within propertiesRoom Json.values?)

namespace Position

/-- A position as a tree. -/
def json (p : Position) : Json :=
  .object [("x", .number (.double p.x)), ("y", .number (.double p.y))]

/-- The fields of a position. -/
def fields : List Field := [⟨"x", false⟩, ⟨"y", false⟩]

/-- The position that a tree holds. -/
def ofJson? (json : Json) : Option Position := do
  let parts ← json.record? fields
  let x ← parts.required "x" Json.double?
  let y ← parts.required "y" Json.double?
  some ⟨x, y⟩

end Position

namespace Node

/-- A node as a tree. -/
def json (node : Node) : Json :=
  .object ([("id", .string node.id), ("kind", .string node.kind)]
    ++ node.properties.member
    ++ Json.member? "groupId" (node.group.map .string)
    ++ Json.member? "position" (node.position.map Position.json))

/-- The fields of a node. -/
def fields : List Field :=
  [⟨"id", false⟩, ⟨"kind", false⟩, ⟨"properties", true⟩, ⟨"groupId", true⟩, ⟨"position", true⟩]

/-- The node that a tree holds. -/
def ofJson? (json : Json) : Option Node := do
  let parts ← json.record? fields
  let id ← parts.required "id" Json.string?
  let kind ← parts.required "kind" Json.string?
  let properties ← parts.properties
  let group ← parts.optional "groupId" Json.string?
  let position ← parts.optional "position" Position.ofJson?
  some ⟨id, kind, properties, group, position⟩

end Node

namespace GroupRecord

/-- A group as a tree. -/
def json (group : GroupRecord) : Json :=
  .object ([("id", .string group.id), ("kind", .string group.kind)]
    ++ group.properties.member
    ++ Json.member? "parentId" (group.parent.map .string)
    ++ Json.member? "position" (group.position.map Position.json))

/-- The fields of a group. -/
def fields : List Field :=
  [⟨"id", false⟩, ⟨"kind", false⟩, ⟨"properties", true⟩, ⟨"parentId", true⟩, ⟨"position", true⟩]

/-- The group that a tree holds. -/
def ofJson? (json : Json) : Option GroupRecord := do
  let parts ← json.record? fields
  let id ← parts.required "id" Json.string?
  let kind ← parts.required "kind" Json.string?
  let properties ← parts.properties
  let parent ← parts.optional "parentId" Json.string?
  let position ← parts.optional "position" Position.ofJson?
  some ⟨id, kind, properties, parent, position⟩

end GroupRecord

namespace Link

/-- A link as a tree. -/
def json (link : Link) : Json :=
  .object ([("id", .string link.id), ("source", .string link.source),
    ("target", .string link.target)] ++ link.properties.member)

/-- The fields of a link. -/
def fields : List Field :=
  [⟨"id", false⟩, ⟨"source", false⟩, ⟨"target", false⟩, ⟨"properties", true⟩]

/-- The link that a tree holds. -/
def ofJson? (json : Json) : Option Link := do
  let parts ← json.record? fields
  let id ← parts.required "id" Json.string?
  let source ← parts.required "source" Json.string?
  let target ← parts.required "target" Json.string?
  let properties ← parts.properties
  some ⟨id, source, target, properties⟩

end Link

namespace Archive

/-- An archive as a tree. -/
def json (a : Archive) : Json :=
  .object [("nodes", .array (a.nodes.map Node.json)),
    ("groups", .array (a.groups.map GroupRecord.json)),
    ("links", .array (a.links.map Link.json))]

/-- The fields of an archive. -/
def fields : List Field := [⟨"nodes", true⟩, ⟨"groups", true⟩, ⟨"links", true⟩]

/-- The archive that a tree holds. -/
def ofJson? (json : Json) : Option Archive := do
  let parts ← json.record? fields
  let nodes ← parts.withDefault "nodes" [] (Json.items? Node.ofJson?)
  let groups ← parts.withDefault "groups" [] (Json.items? GroupRecord.ofJson?)
  let links ← parts.withDefault "links" [] (Json.items? Link.ofJson?)
  some ⟨nodes, groups, links⟩

/-- An archive as text without any space. -/
def text (a : Archive) : String :=
  a.json.compact

/-- An archive as text with one part a line. -/
def prettyText (a : Archive) : String :=
  a.json.pretty

/-- The archive that a text holds. -/
def parse? (s : String) : Option Archive := do
  let json ← Json.parse? s
  ofJson? json

end Archive

end CloudCanvas
