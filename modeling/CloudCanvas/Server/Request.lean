import CloudCanvas.Json.Record
import CloudCanvas.Server.Tool
import CloudCanvas.Topology.Batch

/-!
# Requests to the server

A request is a tool with its arguments, which are read from a JSON tree.  A part
that may be missing must still have its place when a record is written as an
array.

## Main definitions

* `Request`.
* `Request.ofJson?`: the request that a tool and a tree of arguments make.
-/

namespace CloudCanvas

/-- A tool with its arguments. -/
inductive Request where
  | getRules
  | getDesign
  | addGroups (groups : List Group)
  | addNodes (nodes : List Node)
  | addLinks (links : List LinkDraft)
  | setProperties (id : String) (changes : Properties)
  | deleteElements (ids : List String)
  | clearDesign
  | exportTemplate
  | exportBicep
  | saveDesign (name : String)
  | loadDesign (name : String)
  | listDesigns
deriving DecidableEq

namespace Request

/-- A field that has its place in an array. -/
def field (name : String) : Field := ⟨name, false⟩

/-- The properties that a part gives, none if it is missing. -/
def properties? (parts : Parts) : Option Properties := do
  let given ← parts.optional "properties" Json.values?
  some (given.getD ∅)

/-- The position that two coordinates give; one alone leaves the other at zero. -/
def position (x y : Option Double) : Option Position :=
  match x, y with
  | none, none => none
  | x, y => some ⟨x.getD (.zero false), y.getD (.zero false)⟩

/-- The position that the parts of an element give. -/
def position? (parts : Parts) : Option (Option Position) := do
  let x ← parts.optional "x" Json.double?
  let y ← parts.optional "y" Json.double?
  some (position x y)

/-- The group that a tree describes. -/
def group? (json : Json) : Option Group := do
  let parts ← json.record? (["id", "kind", "parent_id", "properties", "x", "y"].map field)
  let id ← parts.required "id" Json.string?
  let kind ← parts.required "kind" Json.string?
  let parent ← parts.optional "parent_id" Json.string?
  let properties ← properties? parts
  let position ← position? parts
  some { id, kind, properties, parent, position, childGroups := [], childNodes := [] }

/-- The node that a tree describes. -/
def node? (json : Json) : Option Node := do
  let parts ← json.record? (["id", "kind", "group_id", "properties", "x", "y"].map field)
  let id ← parts.required "id" Json.string?
  let kind ← parts.required "kind" Json.string?
  let group ← parts.optional "group_id" Json.string?
  let properties ← properties? parts
  let position ← position? parts
  some { id, kind, properties, group, position }

/-- The link that a tree describes. -/
def link? (json : Json) : Option LinkDraft := do
  let parts ← json.record? (["id", "source", "target", "properties"].map field)
  let id ← parts.optional "id" Json.string?
  let source ← parts.required "source" Json.string?
  let target ← parts.required "target" Json.string?
  let properties ← properties? parts
  some { id, source, target, properties }

/-- The one argument of a tool, under its name. -/
def argument? {α : Type} (name : String) (read : Json → Option α) (json : Json) : Option α := do
  let parts ← json.record? [field name]
  parts.required name read

/-- The properties to set on an element. -/
def changes? (json : Json) : Option (String × Properties) := do
  let parts ← json.record? (["element_id", "properties"].map field)
  let id ← parts.required "element_id" Json.string?
  let changes ← parts.required "properties" Json.values?
  some (id, changes)

/-- The request for a tool with arguments. -/
def ofJson? (tool : Tool) (arguments : Json) : Option Request :=
  match tool with
  | .getRules => some .getRules
  | .getDesign => some .getDesign
  | .addGroups => (argument? "groups" (Json.items? group?) arguments).map .addGroups
  | .addNodes => (argument? "nodes" (Json.items? node?) arguments).map .addNodes
  | .addLinks => (argument? "links" (Json.items? link?) arguments).map .addLinks
  | .setProperties => (changes? arguments).map (fun (id, changes) => .setProperties id changes)
  | .deleteElements => (argument? "ids" (Json.items? Json.string?) arguments).map .deleteElements
  | .clearDesign => some .clearDesign
  | .exportTemplate => some .exportTemplate
  | .exportBicep => some .exportBicep
  | .saveDesign => (argument? "name" Json.string? arguments).map .saveDesign
  | .loadDesign => (argument? "name" Json.string? arguments).map .loadDesign
  | .listDesigns => some .listDesigns

end Request

end CloudCanvas
