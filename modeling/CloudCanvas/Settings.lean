import CloudCanvas.Json.Parser
import CloudCanvas.Json.Printer
import CloudCanvas.Json.Record
import CloudCanvas.Store.Open

/-!
# Settings

The settings say where designs are kept and which converter to use.  They are
read from a file, and what the environment says counts more.  A file that cannot
be read is as good as none.

## Main definitions

* `StoreChoice`, `Settings`.
* `Settings.parse?`, `Settings.text`: settings as text.
* `Settings.read`: the settings in force.
* `Home`: the files of the program, and `Settings.openStore`.
-/

namespace CloudCanvas

/-- Where designs are kept. -/
inductive StoreChoice where
  | file
  | http (baseUrl : String)
deriving DecidableEq

/-- Where designs are kept and which converter is called. -/
structure Settings where
  store : StoreChoice
  bicepPath : Option String
deriving DecidableEq

namespace StoreChoice

/-- A choice as a tree. -/
def json : StoreChoice → Json
  | .file => .object [("kind", .string "file")]
  | .http baseUrl => .object [("kind", .string "http"), ("baseUrl", .string baseUrl)]

/-- The text of the one member with a key. -/
def onlyText? (members : List (String × Json)) (key : String) : Option String :=
  match members.filter (·.1 == key) with
  | [(_, .string text)] => some text
  | _ => none

/-- The choice that some members or items are: first the kind, then what belongs
to it. -/
def ofTree? : Json → Option StoreChoice
  | .object members =>
    match onlyText? members "kind" with
    | some "file" => some .file
    | some "http" => (onlyText? members "baseUrl").map .http
    | _ => none
  | .array [.string "file"] => some .file
  | .array [.string "http", .string baseUrl] => some (.http baseUrl)
  | _ => none

/-- The choice that a tree holds.  Since the kind can stand anywhere in it, all of
the tree must be readable. -/
def ofJson? (json : Json) : Option StoreChoice :=
  if (json.within 126 Value.ofJson?).isSome then ofTree? json else none

end StoreChoice

namespace Settings

/-- What holds if nothing is said: designs in files, and a converter that is
looked for. -/
def default : Settings := ⟨.file, none⟩

instance : Inhabited Settings := ⟨default⟩

/-- Settings as a tree. -/
def json (s : Settings) : Json :=
  .object ([("store", s.store.json)] ++ Json.member? "bicepPath" (s.bicepPath.map .string))

/-- Settings as text. -/
def text (s : Settings) : String :=
  s.json.compact

/-- The fields of settings. -/
def fields : List Field := [⟨"store", true⟩, ⟨"bicepPath", true⟩]

/-- The settings that a tree holds. -/
def ofJson? (json : Json) : Option Settings := do
  let parts ← json.record? fields
  let store ← parts.withDefault "store" .file StoreChoice.ofJson?
  let bicepPath ← parts.optional "bicepPath" Json.string?
  some ⟨store, bicepPath⟩

/-- The settings that a text holds. -/
def parse? (s : String) : Option Settings := do
  let json ← Json.parse? s
  ofJson? json

/-- What the environment says, unless it is blank. -/
def said (given : Option String) : Option String :=
  given.filter (fun text => !isAllBlank text)

/-- The settings under what the environment says about the address of the designs
and the path of the converter. -/
def override (s : Settings) (storeUrl bicepPath : Option String) : Settings where
  store := match said storeUrl with
    | some url => .http url
    | none => s.store
  bicepPath := said bicepPath <|> s.bicepPath

/-- The settings in a file, if it can be read. -/
def ofFile (bytes : Option ByteArray) : Settings :=
  ((bytes.bind decodeUtf8?).bind parse?).getD default

/-- The settings in force. -/
def read (bytes : Option ByteArray) (storeUrl bicepPath : Option String) : Settings :=
  (ofFile bytes).override storeUrl bicepPath

/-- The store that the settings choose, given the directory for designs. -/
def openStore (s : Settings) (designs : DirectoryStore) : OpenStore :=
  match s.store with
  | .file => .directory designs
  | .http baseUrl => .remote ⟨baseUrl⟩

end Settings

/-- The files of the program in a user's home directory. -/
structure Home where
  settings : Option ByteArray
  designs : DirectoryStore

/-- The paths of the files in order. -/
def Home.files (home : Home) : List String :=
  home.designs.files.map (".cumulus/designs/" ++ ·)
    ++ (if home.settings.isSome then [".cumulus/settings.json"] else [])

end CloudCanvas
