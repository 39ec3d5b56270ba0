import CloudCanvas.Topology.Change

/-!
# Editing a topology

An insertion checks that the id is new and that everything it refers to is there,
and enters the element in the group around it before it puts it behind the others;
a removal takes with it whatever would be left without its place.

## Main definitions

* `Change.addNode`, `Change.addGroup`, `Change.addLink`: insertions, in place.
* `Change.setProperty`, `Change.removeProperty`: properties, in place.
* `Topology.addNode` and so on: the same on a copy.
* `Topology.removeNode?`, `Topology.removeGroup?`, `Topology.removeLink?`,
  `Topology.remove?`: removals, `none` if nothing has the id.
-/

namespace CloudCanvas

namespace Topology

/-! ## Insertion -/

/-- Change the group with an id. -/
def updateGroup (t : Topology) (id : String) (change : Group → Group) : Topology :=
  { t with groups := t.groups.map (fun group => if group.id = id then change group else group) }

/-- Enter a node as the last in its group. -/
def enterNode (t : Topology) (parent : Option String) (id : String) : Topology :=
  match parent with
  | none => t
  | some parent =>
    t.updateGroup parent (fun group => { group with childNodes := group.childNodes ++ [id] })

/-- Enter a group as the last subgroup of another. -/
def enterGroup (t : Topology) (parent : Option String) (id : String) : Topology :=
  match parent with
  | none => t
  | some parent =>
    t.updateGroup parent (fun group => { group with childGroups := group.childGroups ++ [id] })

/-- The group that an element is to be put into and that is not there. -/
def missingParent (t : Topology) (parent : Option String) : Option String :=
  parent.filter (fun id => (t.group? id).isNone)

/-- The first end of a link that is not there. -/
def missingEndpoint (t : Topology) (link : Link) : Option String :=
  [link.source, link.target].find? (fun id => (t.element? id).isNone)

/-- Why an id cannot be given once more. -/
def usedId? (t : Topology) (id : String) : Option IntegrityError :=
  if t.uses id then some (.duplicateId id) else none

end Topology

namespace Change

/-- Add a node, without its properties that have no value. -/
def addNode (node : Node) : Change Unit := do
  check (·.usedId? node.id)
  check (fun t => (t.missingParent node.group).map (.unknownParent node.id))
  modify (·.enterNode node.group node.id)
  modify (fun t =>
    { t with nodes := t.nodes ++ [{ node with properties := node.properties.withoutNulls }] })

/-- Add a group.  It starts empty, whatever it was said to contain. -/
def addGroup (group : Group) : Change Unit := do
  check (·.usedId? group.id)
  check (fun t => (t.missingParent group.parent).map (.unknownParent group.id))
  modify (·.enterGroup group.parent group.id)
  modify (fun t => { t with
    groups := t.groups ++ [{ group with
      properties := group.properties.withoutNulls, childGroups := [], childNodes := [] }] })

/-- Add a link. -/
def addLink (link : Link) : Change Unit := do
  check (·.usedId? link.id)
  check (fun t => (t.missingEndpoint link).map (.danglingEndpoint link.id))
  modify (fun t =>
    { t with links := t.links ++ [{ link with properties := link.properties.withoutNulls }] })

end Change

namespace Topology

/-- The topology with a node more. -/
def addNode (t : Topology) (node : Node) : Except IntegrityError Topology :=
  (t.tried (Change.addNode node)).map (·.2)

/-- The topology with a group more. -/
def addGroup (t : Topology) (group : Group) : Except IntegrityError Topology :=
  (t.tried (Change.addGroup group)).map (·.2)

/-- The topology with a link more. -/
def addLink (t : Topology) (link : Link) : Except IntegrityError Topology :=
  (t.tried (Change.addLink link)).map (·.2)

/-! ## Removal -/

/-- Remove a node and the links at it. -/
def removeNode? (t : Topology) (id : String) : Option Topology :=
  match t.node? id with
  | none => none
  | some node =>
    let t := match node.group with
      | none => t
      | some parent =>
        t.updateGroup parent (fun group =>
          { group with childNodes := group.childNodes.filter (· != id) })
    some { t with
      nodes := t.nodes.filter (·.id != id)
      links := t.links.filter (fun link => !link.touches id) }

/-- The ids of a group and of everything inside it. -/
def contentIds (t : Topology) (id : String) : List String :=
  (t.contents id).flatMap (fun group => group.id :: group.childNodes)

/-- Remove a group, everything inside it and the links at any of these. -/
def removeGroup? (t : Topology) (id : String) : Option Topology :=
  match t.group? id with
  | none => none
  | some group =>
    let doomed := t.contentIds id
    let t := match group.parent with
      | none => t
      | some parent =>
        t.updateGroup parent (fun outer =>
          { outer with childGroups := outer.childGroups.filter (· != id) })
    some {
      nodes := t.nodes.filter (fun node => !doomed.contains node.id)
      groups := t.groups.filter (fun group => !doomed.contains group.id)
      links := t.links.filter (fun link =>
        !doomed.contains link.source && !doomed.contains link.target) }

/-- Remove a link. -/
def removeLink? (t : Topology) (id : String) : Option Topology :=
  match t.link? id with
  | none => none
  | some _ => some { t with links := t.links.filter (·.id != id) }

/-- Remove whatever has an id. -/
def remove? (t : Topology) (id : String) : Option Topology :=
  t.removeNode? id <|> t.removeGroup? id <|> t.removeLink? id

/-! ## Properties -/

/-- The properties of whatever has an id. -/
def properties? (t : Topology) (id : String) : Option Properties :=
  match t.element? id with
  | some element => some element.properties
  | none => (t.link? id).map (·.properties)

/-- Change the properties of whatever has an id. -/
def updateProperties (t : Topology) (id : String) (change : Properties → Properties) : Topology :=
  { nodes := t.nodes.map (fun node =>
      if node.id = id then { node with properties := change node.properties } else node)
    groups := t.groups.map (fun group =>
      if group.id = id then { group with properties := change group.properties } else group)
    links := t.links.map (fun link =>
      if link.id = id then { link with properties := change link.properties } else link) }

end Topology

namespace Change

/-- The properties of whatever has an id. -/
def properties (id : String) : Change Properties := do
  match (← get).properties? id with
  | some properties => return properties
  | none => throw (.unknownElement id)

/-- Set a property, or drop it if it is given no value. -/
def setProperty (id name : String) (value : Value) : Change Unit := do
  let _ ← properties id
  modify (·.updateProperties id (·.set name value))

/-- Drop a property, and say whether it was there. -/
def removeProperty (id name : String) : Change Bool := do
  let properties ← properties id
  modify (·.updateProperties id (·.erase name))
  return properties.contains name

end Change

namespace Topology

/-- The topology with a property set, or dropped if it is given no value. -/
def setProperty (t : Topology) (id name : String) (value : Value) :
    Except IntegrityError Topology :=
  (t.tried (Change.setProperty id name value)).map (·.2)

/-- The topology without a property, and whether that was there. -/
def removeProperty (t : Topology) (id name : String) : Except IntegrityError (Bool × Topology) :=
  t.tried (Change.removeProperty id name)

end Topology

end CloudCanvas
