import CloudCanvas.Export.Capability
import CloudCanvas.Topology.Containment

/-!
# Building a template

The elements are visited in one order: the groups as an outline of the drawing,
then the nodes as they were added.  A subnet is left to the network directly
around it, an annotation is passed over, and everything else is exported.  No two
exported elements may have parameters of the same scope.

## Main definitions

* `Topology.visitOrder`: the order of the elements.
* `Draft`, `Draft.visit`: the template in the making, and one more element.
* `Topology.build`: the template and a report, `none` for an empty drawing.
-/

namespace CloudCanvas

/-- What became of the elements, in the order of the visits. -/
structure BuildReport where
  /-- Elements that contributed to the template. -/
  exported : List String
  /-- Groups that the group around them exports. -/
  delegated : List String
  /-- Annotations. -/
  ignored : List String
  /-- Parameters that a later element replaced. -/
  replaced : List String
deriving DecidableEq

/-- A template with its report. -/
structure Build where
  template : Template
  report : BuildReport
deriving DecidableEq

/-- A template in the making, and which element has which scope of parameters. -/
structure Draft where
  template : Template
  report : BuildReport
  scopes : List (String × String)

/-- The draft before the first visit. -/
def Draft.start : Draft := ⟨∅, ⟨[], [], [], []⟩, []⟩

/-- The elements in the order in which they are visited. -/
def Topology.visitOrder (t : Topology) : List Element :=
  (t.topLevelGroups.flatMap t.outline).map .group ++ t.nodes.map .node

/-- Whether a group is exported by the one directly around it. -/
def Topology.isDelegated (t : Topology) (group : Group) : Bool :=
  match groupRole group.kind with
  | .standalone => false
  | .nestedOnly within =>
    match t.parentOf (.group group) with
    | some parent => parent.kind == within.tag
    | none => false

namespace Draft

/-- Reserve the scope of an element's parameters, if it has any. -/
def reserve (draft : Draft) (id : String) (parameters : List (String × ParameterDefinition)) :
    Except ExportError Draft :=
  if parameters.isEmpty then .ok draft
  else
    let scope := parameterScope id
    match draft.scopes.lookup scope with
    | some owner => .error ⟨id, .sharedScope owner⟩
    | none => .ok { draft with scopes := (scope, id) :: draft.scopes }

/-- Enter what an element contributes. -/
def enter (draft : Draft) (id : String) (parameters : List (String × ParameterDefinition))
    (resource : Resource) : Draft :=
  let (replaced, template) := draft.template.addParameters parameters
  { draft with
    template := template.addResources [resource]
    report := { draft.report with
      exported := draft.report.exported ++ [id]
      replaced := draft.report.replaced ++ replaced } }

/-- Export an element. -/
def contribute (t : Topology) (draft : Draft) (id : String) (capability : Capability) :
    Except ExportError Draft := do
  let parameters ← capability.parameters
  let draft ← draft.reserve id parameters
  let resource ← capability.resource t
  return draft.enter id parameters resource

/-- Visit an element that is not delegated. -/
def visitOwn (t : Topology) (draft : Draft) (element : Element) : Except ExportError Draft :=
  match Capability.of? element with
  | none =>
    .ok { draft with
      report := { draft.report with ignored := draft.report.ignored ++ [element.id] } }
  | some capability => draft.contribute t element.id capability

/-- Visit an element. -/
def visit (t : Topology) (draft : Draft) (element : Element) : Except ExportError Draft :=
  match element with
  | .group group =>
    if t.isDelegated group then
      .ok { draft with
        report := { draft.report with delegated := draft.report.delegated ++ [group.id] } }
    else draft.visitOwn t element
  | .node _ => draft.visitOwn t element

end Draft

/-- The template of a drawing, `none` if there is nothing on it. -/
def Topology.build (t : Topology) : Except ExportError (Option Build) :=
  if t.isEmpty then .ok none
  else do
    let draft ← t.visitOrder.foldlM (Draft.visit t) Draft.start
    return some ⟨draft.template, draft.report⟩

end CloudCanvas
