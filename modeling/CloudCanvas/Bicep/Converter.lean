import CloudCanvas.Bicep.Source
import CloudCanvas.Export.Build
import CloudCanvas.Template.Codec
import CloudCanvas.Text.Utf8

/-!
# Converting templates to Bicep

A converter is a program that is given a file with a template and prints source.
The source is brought to its normal form, and if nothing is left of it the
conversion has failed.

## Main definitions

* `ConvertError`: why a template could not be converted, and its wording.
* `Executable`, `ConverterProgram`: what is found where a converter is looked for.
* `ConverterProgram.convert`: running one.
* `decompile`: a template as source.
-/

namespace CloudCanvas

/-- Why a template could not be converted. -/
inductive ConvertError where
  | notFound (reason : String)
  | notStarted (reason : String)
  | failed (exitCode : Option Int) (output : String)
  | emptyOutput
deriving DecidableEq

/-- The wording of an error. -/
def ConvertError.message : ConvertError → String
  | .notFound reason => "bicep executable not found: " ++ reason
  | .notStarted reason => "could not run bicep: " ++ reason
  | .failed exitCode output =>
    let code := match exitCode with
      | some code => toString code
      | none => "none"
    "bicep decompile failed (exit code " ++ code ++ "): " ++ output
  | .emptyOutput => "decompilation produced no output"

/-! ## Running a program -/

/-- What a program printed and how it ended; no code if it was killed. -/
structure Completion where
  output : ByteArray
  errors : ByteArray
  exitCode : Option Int

/-- What is found at a path. -/
inductive Executable where
  | missing
  | forbidden
  /-- A program: what it does with arguments and the text of the file that is
  named behind them. -/
  | program (run : (arguments : List String) → (input : String) → Completion)

/-- A converter: the path that was given for it, or was found for its name, and
what lies there. -/
structure ConverterProgram where
  path : String
  executable : Executable

namespace ConverterProgram

/-- The arguments in front of the name of the file. -/
def arguments : List String := ["decompile", "--stdout"]

/-- What a program that has ended made of a template. -/
def result (completion : Completion) : Except ConvertError String :=
  if completion.exitCode = some 0 then .ok (decodeUtf8Lossy completion.output)
  else .error (.failed completion.exitCode (trimBlank (decodeUtf8Lossy completion.errors)))

/-- What comes of starting a converter. -/
def start (converter : ConverterProgram) (template : String) : Except ConvertError String :=
  let refused (reason : String) := Except.error (.notStarted (converter.path ++ ": " ++ reason))
  if converter.path.toList.contains '\x00' then refused "nul byte found in provided data"
  else match converter.executable with
    | .missing => refused "No such file or directory (os error 2)"
    | .forbidden => refused "Permission denied (os error 13)"
    | .program run => result (run arguments template)

/-- What a converter makes of the text of a template.  None is given if none was
found. -/
def convert (converter : Option ConverterProgram) (template : String) :
    Except ConvertError String :=
  match converter with
  | none => .error (.notFound "cannot find binary path")
  | some converter => converter.start template

end ConverterProgram

/-! ## Templates as source -/

/-- The normal form of what a converter has printed. -/
def normalizeResult (result : Except ConvertError String) : Except ConvertError String := do
  let source ← result
  let normal := normalizeSource source
  if normal.isEmpty then throw .emptyOutput
  return normal

/-- A template as source. -/
def decompile {m : Type → Type} [Monad m] (convert : String → m (Except ConvertError String))
    (template : Template) : m (Except ConvertError String) := do
  let result ← convert template.text
  return normalizeResult result

end CloudCanvas
