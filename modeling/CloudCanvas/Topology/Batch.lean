import CloudCanvas.Topology.Edit

/-!
# Edits in batches

A batch is made in place, one edit after another, and stops at the first that is
refused.  So that it is done as a whole or not at all, it is tried on a copy.  A link
without an id gets the next free one of the row `link-1`, `link-2` and so on.

## Main definitions

* `LinkDraft`: a link that may have no id yet.
* `Topology.freshLinkId`: the next free id for a link.
* `Change.addGroups`, `Change.addNodes`, `Change.addLinks`, `Change.setProperties`: batches,
  in place.
* `Topology.addGroups` and so on: the same on a copy.
* `Topology.removeAll`.
-/

namespace CloudCanvas

/-- A link to be added, perhaps without an id yet. -/
structure LinkDraft where
  id : Option String
  source : String
  target : String
  properties : Properties
deriving DecidableEq

/-- The id that a link gets by its number. -/
def numberedLink (n : Nat) : String :=
  "link-" ++ toString n

namespace Topology

/-- The first free id of a link whose number is greater than the number of links.
There are fewer ids in use than numbers to try. -/
def freshLinkId (t : Topology) : String :=
  let ids := (List.range (t.size + 1)).map (fun i => numberedLink (t.links.length + 1 + i))
  (ids.find? (fun id => !t.uses id)).getD (numberedLink (t.links.length + t.size + 2))

end Topology

namespace Change

/-- Add groups one after another. -/
def addGroups (groups : List Group) : Change Unit :=
  groups.forM addGroup

/-- Add nodes one after another. -/
def addNodes (nodes : List Node) : Change Unit :=
  nodes.forM addNode

/-- Add a link, under a fresh id if it has none, and say its id. -/
def addDraft (draft : LinkDraft) : Change String := do
  let id := draft.id.getD (← get).freshLinkId
  addLink ⟨id, draft.source, draft.target, draft.properties⟩
  return id

/-- Add links one after another, and say their ids. -/
def addLinks (drafts : List LinkDraft) : Change (List String) :=
  drafts.mapM addDraft

/-- Set properties of whatever has an id; those without a value are dropped. -/
def setProperties (id : String) (changes : Properties) : Change Unit :=
  changes.entries.forM (fun change => setProperty id change.1 change.2)

end Change

namespace Topology

/-- The topology with more groups. -/
def addGroups (t : Topology) (groups : List Group) : Except IntegrityError Topology :=
  (t.tried (Change.addGroups groups)).map (·.2)

/-- The topology with more nodes. -/
def addNodes (t : Topology) (nodes : List Node) : Except IntegrityError Topology :=
  (t.tried (Change.addNodes nodes)).map (·.2)

/-- The id of one more link, and the topology with it. -/
def addDraft (t : Topology) (draft : LinkDraft) : Except IntegrityError (String × Topology) :=
  t.tried (Change.addDraft draft)

/-- The ids of more links, and the topology with them. -/
def addLinks (t : Topology) (drafts : List LinkDraft) :
    Except IntegrityError (List String × Topology) :=
  t.tried (Change.addLinks drafts)

/-- The topology with properties set of whatever has an id. -/
def setProperties (t : Topology) (id : String) (changes : Properties) :
    Except IntegrityError Topology :=
  (t.tried (Change.setProperties id changes)).map (·.2)

/-- Remove what has the ids, one after another: the ids that were found, those
that were not, and the topology. -/
def removeAll (t : Topology) : List String → List String × List String × Topology
  | [] => ([], [], t)
  | id :: rest =>
    match t.remove? id with
    | some next =>
      let (removed, missing, t) := next.removeAll rest
      (id :: removed, missing, t)
    | none =>
      let (removed, missing, t) := t.removeAll rest
      (removed, id :: missing, t)

end Topology

end CloudCanvas
