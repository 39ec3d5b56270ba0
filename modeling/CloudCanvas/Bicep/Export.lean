import CloudCanvas.Bicep.Converter

/-!
# Exports

A drawing is exported as the text of its template or as Bicep source.  Only the
latter calls a converter.

## Main definitions

* `ExportFormat`, `Artifact`, `ExportFailure`.
* `Template.render`: a template in a format.
* `Topology.exportAs`: a drawing in a format, `none` if there is nothing on it.
-/

namespace CloudCanvas

/-- What a drawing is exported as. -/
inductive ExportFormat where
  | json
  | bicep
deriving DecidableEq

namespace ExportFormat

/-- All formats. -/
def all : List ExportFormat := [.json, .bicep]

/-- The name of a format. -/
def name : ExportFormat → String
  | .json => "json"
  | .bicep => "bicep"

/-- The format that a tree names. -/
def ofJson? : Json → Option ExportFormat :=
  Json.choice? all name

end ExportFormat

/-- An exported drawing and the template that it was made from. -/
structure Artifact where
  format : ExportFormat
  content : String
  template : Template
deriving DecidableEq

/-- Why a drawing could not be exported. -/
inductive ExportFailure where
  | element (error : ExportError)
  | conversion (error : ConvertError)
deriving DecidableEq

/-- The wording of a failure. -/
def ExportFailure.message : ExportFailure → String
  | .element error => error.message
  | .conversion error => error.message

/-- A template in a format. -/
def Template.render {m : Type → Type} [Monad m]
    (convert : String → m (Except ConvertError String)) (format : ExportFormat)
    (template : Template) : m (Except ConvertError String) :=
  match format with
  | .json => pure (.ok template.text)
  | .bicep => decompile convert template

/-- A drawing in a format. -/
def Topology.exportAs {m : Type → Type} [Monad m]
    (convert : String → m (Except ConvertError String)) (format : ExportFormat)
    (t : Topology) : m (Except ExportFailure (Option Artifact)) :=
  match t.build with
  | .error e => pure (.error (.element e))
  | .ok none => pure (.ok none)
  | .ok (some build) => do
    match ← build.template.render convert format with
    | .ok content => return .ok (some ⟨format, content, build.template⟩)
    | .error e => return .error (.conversion e)

end CloudCanvas
