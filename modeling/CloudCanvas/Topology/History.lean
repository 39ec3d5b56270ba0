import CloudCanvas.Archive

/-!
# Histories of edits

Every change to a topology is an edit, and every edit has an outcome: it is done,
it found nothing to do, or it is refused.  What a drawing can be is what some
history of edits makes of the empty one.

## Main definitions

* `Edit`, `EditOutcome`, `Topology.apply`: one change.
* `Topology.run`: a history of changes.
* `Topology.Reachable`: the result of some history.
-/

namespace CloudCanvas

/-- A change to a topology. -/
inductive Edit where
  | addNode (node : Node)
  | addGroup (group : Group)
  | addLink (link : Link)
  | remove (id : String)
  | removeNode (id : String)
  | removeGroup (id : String)
  | removeLink (id : String)
  | setProperty (id name : String) (value : Value)
  | removeProperty (id name : String)
  | clear
  | load (archive : Archive)
deriving DecidableEq

/-- What came of a change. -/
inductive EditOutcome where
  | done
  /-- Whether there was something to remove. -/
  | removed (any : Bool)
  | loaded (summary : LoadSummary)
  | refused (error : IntegrityError)
deriving DecidableEq

namespace Topology

/-- What a change comes to, with the topology as it leaves it. -/
def outcome {α : Type} (done : α → EditOutcome) :
    Except IntegrityError α × Topology → EditOutcome × Topology
  | (.ok a, t) => (done a, t)
  | (.error e, t) => (.refused e, t)

/-- What a removal comes to: without anything to remove the topology stays as it
was. -/
def settleRemoval (t : Topology) (result : Option Topology) : EditOutcome × Topology :=
  match result with
  | some next => (.removed true, next)
  | none => (.removed false, t)

/-- Make a change in place. -/
def apply (t : Topology) : Edit → EditOutcome × Topology
  | .addNode node => outcome (fun _ => .done) (t.after (Change.addNode node))
  | .addGroup group => outcome (fun _ => .done) (t.after (Change.addGroup group))
  | .addLink link => outcome (fun _ => .done) (t.after (Change.addLink link))
  | .remove id => t.settleRemoval (t.remove? id)
  | .removeNode id => t.settleRemoval (t.removeNode? id)
  | .removeGroup id => t.settleRemoval (t.removeGroup? id)
  | .removeLink id => t.settleRemoval (t.removeLink? id)
  | .setProperty id name value =>
    outcome (fun _ => .done) (t.after (Change.setProperty id name value))
  | .removeProperty id name => outcome .removed (t.after (Change.removeProperty id name))
  | .clear => (.done, ∅)
  | .load archive => outcome .loaded (t.load archive)

/-- Make changes one after another. -/
def run (t : Topology) (edits : List Edit) : Topology :=
  edits.foldl (fun t edit => (t.apply edit).2) t

/-- What some history of changes makes of the empty topology. -/
def Reachable (t : Topology) : Prop :=
  ∃ edits, t = run ∅ edits

end Topology

end CloudCanvas
