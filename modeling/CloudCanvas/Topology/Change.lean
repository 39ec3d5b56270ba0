import CloudCanvas.Topology.Containment

/-!
# Changes that can be refused

A topology is changed where it stands, in steps.  A step can find that the topology
would stop being consistent; then the change is refused, and what the steps before it
have done stays done.  Whoever cannot have that makes the change on a copy.

## Main definitions

* `IntegrityError`: why a change is refused, and `IntegrityError.message`.
* `Change`: steps on a topology with a result.
* `Topology.after`: what a change comes to, and what it leaves of the topology.
* `Topology.tried`: the same on a copy, which is dropped if the change is refused.
-/

namespace CloudCanvas

/-- Why a topology would stop being consistent. -/
inductive IntegrityError where
  | duplicateId (id : String)
  | unknownParent (child parent : String)
  | parentNotYetLoaded (child parent : String)
  | danglingEndpoint (link endpoint : String)
  | unknownElement (id : String)
deriving DecidableEq

/-- The wording of an error. -/
def IntegrityError.message : IntegrityError → String
  | .duplicateId id => "element id '" ++ id ++ "' is already in use"
  | .unknownParent child parent =>
    "'" ++ child ++ "' references parent group '" ++ parent ++ "', which does not exist"
  | .parentNotYetLoaded child parent =>
    "group '" ++ child ++ "' is stored before its parent '" ++ parent
      ++ "'; groups must be persisted parent-before-child"
  | .danglingEndpoint link endpoint =>
    "link '" ++ link ++ "' references missing endpoint '" ++ endpoint ++ "'"
  | .unknownElement id => "element '" ++ id ++ "' does not exist"

/-- Steps on a topology, of which one may refuse to go on.  The state is kept then:
it is the topology as the steps before have made it. -/
abbrev Change (α : Type) := ExceptT IntegrityError (StateM Topology) α

/-- Refuse to go on if there is a fault in the topology. -/
def Change.check (fault? : Topology → Option IntegrityError) : Change Unit := do
  if let some e := fault? (← get) then throw e

namespace Topology

variable {α : Type}

/-- What a change comes to, and the topology as it leaves it. -/
def after (t : Topology) (change : Change α) : Except IntegrityError α × Topology :=
  StateT.run change.run t

/-- What a change comes to on a copy, with the copy.  A refusal leaves nothing of it. -/
def tried (t : Topology) (change : Change α) : Except IntegrityError (α × Topology) :=
  match t.after change with
  | (.ok a, next) => .ok (a, next)
  | (.error e, _) => .error e

end Topology

end CloudCanvas
