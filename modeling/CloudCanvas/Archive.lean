import CloudCanvas.Topology.Edit

/-!
# Archives

An archive is a topology written down flat: nodes and links as they are, and
groups without what they contain, which the nodes and groups inside them say.
Reading one back adds groups first, then nodes, then links, so a group must stand
behind the group that contains it.

## Main definitions

* `Archive`: the records.
* `Topology.archive?`: a topology written down, `none` if there is nothing.
* `Archive.restore`: the topology that an archive describes.
* `Topology.load`: the same in place of an old topology.
-/

namespace CloudCanvas

/-- The records of a topology. -/
structure Archive where
  nodes : List Node
  groups : List GroupRecord
  links : List Link
deriving DecidableEq

/-- How many nodes, groups and links were read. -/
structure LoadSummary where
  nodes : Nat
  groups : Nat
  links : Nat
deriving DecidableEq

/-- A topology written down. -/
def Topology.archive? (t : Topology) : Option Archive :=
  if t.isEmpty then none
  else some ⟨t.nodes, t.groups.map (·.toGroupRecord), t.links⟩

namespace Archive

/-- The archive without records. -/
def empty : Archive := ⟨[], [], []⟩

instance : EmptyCollection Archive := ⟨empty⟩

/-- How many records there are. -/
def summary (a : Archive) : LoadSummary :=
  ⟨a.nodes.length, a.groups.length, a.links.length⟩

/-- Why the group around a stored group cannot be found: it is stored further
on, or it is not stored at all. -/
def parentFault (a : Archive) (child parent : String) : IntegrityError :=
  if (a.groups.map (·.id)).contains parent then .parentNotYetLoaded child parent
  else .unknownParent child parent

/-- Add a stored group. -/
def addGroup (a : Archive) (t : Topology) (record : GroupRecord) :
    Except IntegrityError Topology :=
  match t.missingParent record.parent with
  | some parent => .error (a.parentFault record.id parent)
  | none => t.addGroup { record with childGroups := [], childNodes := [] }

/-- The topology that an archive describes. -/
def restore (a : Archive) : Except IntegrityError Topology := do
  let t ← a.groups.foldlM a.addGroup ∅
  let t ← a.nodes.foldlM Topology.addNode t
  a.links.foldlM Topology.addLink t

end Archive

/-- Put what an archive describes in place of a topology, or nothing if the
archive is not consistent. -/
def Topology.load (_ : Topology) (a : Archive) : Except IntegrityError LoadSummary × Topology :=
  match a.restore with
  | .ok t => (.ok a.summary, t)
  | .error e => (.error e, ∅)

end CloudCanvas
