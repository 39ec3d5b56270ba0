import CloudCanvas.Json.Value

/-!
# Topologies

A topology is a drawing of a network: nodes, groups that contain nodes and other
groups, and links between any two of these.  Its lists are in the order in which
the elements were added.

## Main definitions

* `Node`, `Group`, `Link`, `Topology`: the data.
* `Element`: a node or a group.
* `Topology.element?`, `Topology.uses`: what an id names.
* `Topology.childrenOf`, `Topology.linksOf`, `Topology.linked`: neighbours.
-/

namespace CloudCanvas

/-- Names of properties and their values. -/
abbrev Properties := Dict Value

namespace Properties

/-- The properties that have a value. -/
def withoutNulls (properties : Properties) : Properties :=
  properties.filter (fun _ value => !value.isNull)

/-- Set a property, or drop it if it is given no value. -/
def set (properties : Properties) (name : String) (value : Value) : Properties :=
  if value.isNull then properties.erase name else properties.insert name value

end Properties

/-- Where an element stands on the canvas. -/
structure Position where
  x : Double
  y : Double
deriving DecidableEq

/-- A resource or an annotation. -/
structure Node where
  id : String
  kind : String
  properties : Properties
  group : Option String
  position : Option Position
deriving DecidableEq

/-- A group as it is written down: with the group around it but without what it
contains. -/
structure GroupRecord where
  id : String
  kind : String
  properties : Properties
  parent : Option String
  position : Option Position
deriving DecidableEq

/-- A group with the ids of the groups and nodes directly inside it, in the order
in which they came. -/
structure Group extends GroupRecord where
  childGroups : List String
  childNodes : List String
deriving DecidableEq

/-- A link between two elements. -/
structure Link where
  id : String
  source : String
  target : String
  properties : Properties
deriving DecidableEq

/-- Whether a link starts or ends at an element. -/
def Link.touches (link : Link) (id : String) : Bool :=
  link.source == id || link.target == id

/-- The other end of a link at an element. -/
def Link.otherEnd? (link : Link) (id : String) : Option String :=
  if link.source = id then some link.target
  else if link.target = id then some link.source
  else none

/-- What a link can start or end at. -/
inductive Element where
  | node (node : Node)
  | group (group : Group)
deriving DecidableEq

namespace Element

/-- The id of an element. -/
def id : Element → String
  | .node n => n.id
  | .group g => g.id

/-- The kind of an element. -/
def kind : Element → String
  | .node n => n.kind
  | .group g => g.kind

/-- The properties of an element. -/
def properties : Element → Properties
  | .node n => n.properties
  | .group g => g.properties

/-- The id of the group directly around an element. -/
def parent : Element → Option String
  | .node n => n.group
  | .group g => g.parent

/-- Where an element stands. -/
def position : Element → Option Position
  | .node n => n.position
  | .group g => g.position

/-- A property that is a text. -/
def text? (element : Element) (name : String) : Option String := do
  let value ← element.properties.get? name
  value.string?

end Element

/-- A drawing. -/
structure Topology where
  nodes : List Node
  groups : List Group
  links : List Link
deriving DecidableEq

namespace Topology

/-- The drawing without anything on it. -/
def empty : Topology := ⟨[], [], []⟩

instance : EmptyCollection Topology := ⟨empty⟩

instance : Inhabited Topology := ⟨empty⟩

/-! ## Ids -/

/-- The node with an id. -/
def node? (t : Topology) (id : String) : Option Node :=
  t.nodes.find? (·.id == id)

/-- The group with an id. -/
def group? (t : Topology) (id : String) : Option Group :=
  t.groups.find? (·.id == id)

/-- The link with an id. -/
def link? (t : Topology) (id : String) : Option Link :=
  t.links.find? (·.id == id)

/-- The node or group with an id. -/
def element? (t : Topology) (id : String) : Option Element :=
  match t.node? id with
  | some node => some (.node node)
  | none => (t.group? id).map .group

/-- Whether a node, group or link has an id. -/
def uses (t : Topology) (id : String) : Bool :=
  (t.element? id).isSome || (t.link? id).isSome

/-! ## Size -/

/-- Whether there is neither a node nor a group. -/
def isEmpty (t : Topology) : Bool :=
  t.nodes.isEmpty && t.groups.isEmpty

/-- How many nodes, groups and links there are. -/
def size (t : Topology) : Nat :=
  t.nodes.length + t.groups.length + t.links.length

/-! ## Neighbours -/

/-- The nodes that no group contains. -/
def topLevelNodes (t : Topology) : List Node :=
  t.nodes.filter (·.group.isNone)

/-- The groups that no group contains. -/
def topLevelGroups (t : Topology) : List Group :=
  t.groups.filter (·.parent.isNone)

/-- The links at an element. -/
def linksOf (t : Topology) (id : String) : List Link :=
  t.links.filter (·.touches id)

/-- What is directly inside a group: groups before nodes. -/
def childrenOf (t : Topology) (id : String) : List Element :=
  match t.group? id with
  | none => []
  | some group =>
    group.childGroups.filterMap (fun child => (t.group? child).map Element.group)
      ++ group.childNodes.filterMap (fun child => (t.node? child).map Element.node)

/-- The group directly around an element. -/
def parentOf (t : Topology) (element : Element) : Option Group := do
  let id ← element.parent
  t.group? id

/-- The elements that links join to an element, each once, in the order of the
links. -/
def linked (t : Topology) (id : String) : List Element :=
  (t.links.filterMap (·.otherEnd? id)).eraseDups.filterMap t.element?

end Topology

end CloudCanvas
