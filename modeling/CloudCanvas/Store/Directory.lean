import CloudCanvas.Dict
import CloudCanvas.Store
import CloudCanvas.Text.Utf8

/-!
# A store in a directory

Each design is a file whose name is the design's with an ending.  A design is
written to a hidden file first, which then takes the place of the old one, so a
reader never sees half of it.

## Main definitions

* `Entry`, `DirectoryStore`: what lies in a directory, if there is one.
* `DirectoryStore.save`, `DirectoryStore.load`, `DirectoryStore.list`.
-/

namespace CloudCanvas

/-- What can lie in a directory. -/
inductive Entry where
  | file (bytes : ByteArray)
  | folder

/-- A directory by the names in it; none if it has not been made. -/
structure DirectoryStore where
  contents : Option (Dict Entry)

namespace DirectoryStore

/-- The ending of a design's file. -/
def ending : String := ".design.json"

/-- The file of a design. -/
def fileName (name : String) : String :=
  name ++ ending

/-- The file that a design is written to first. -/
def draftName (name : String) : String :=
  "." ++ name ++ ending ++ ".tmp"

/-- Whether no file can have a name. -/
def nameFault? (fileName : String) : Option FileFault :=
  if fileName.toList.contains '\x00' then some .nulInName
  else if 255 < utf8Length fileName then some .nameTooLong
  else none

/-- The entries of a directory, none of one that has not been made. -/
def entries (store : DirectoryStore) : Dict Entry :=
  store.contents.getD ∅

/-- Write a file, unless a directory is in its way. -/
def write (entries : Dict Entry) (fileName data : String) : Except FileFault (Dict Entry) :=
  match nameFault? fileName with
  | some fault => .error fault
  | none =>
    match entries.get? fileName with
    | some .folder => .error .isDirectory
    | _ => .ok (entries.insert fileName (.file data.toUTF8))

/-- Put a file in the place of another, unless a directory is in its way. -/
def rename (entries : Dict Entry) (source target : String) : Except FileFault (Dict Entry) :=
  match entries.get? target, entries.get? source with
  | some .folder, _ => .error .isDirectory
  | _, some entry => .ok ((entries.erase source).insert target entry)
  | _, none => .ok entries

/-- Write a design in two steps.  The directory is made first and stays, and so
does the hidden file if it cannot take the place of the old one. -/
def replace (entries : Dict Entry) (name data : String) : Except FileFault Nat × Dict Entry :=
  match nameFault? (fileName name) with
  | some fault => (.error fault, entries)
  | none =>
    match write entries (draftName name) data with
    | .error fault => (.error fault, entries)
    | .ok drafted =>
      match rename drafted (draftName name) (fileName name) with
      | .error fault => (.error fault, drafted)
      | .ok renamed =>
        (.ok (if entries.contains (fileName name) then Status.ok else Status.created), renamed)

/-- Save a design, unless its name cannot be one. -/
def save (store : DirectoryStore) (name data : String) : Except FileFault Nat × DirectoryStore :=
  if isValidName name then
    let (result, entries) := replace store.entries name data
    (result, ⟨some entries⟩)
  else (.ok Status.badRequest, store)

/-- The status and text of an entry that was looked up. -/
def read : Option Entry → Except FileFault (Nat × String)
  | none => .ok (Status.notFound, "")
  | some .folder => .error .isDirectory
  | some (.file bytes) =>
    match decodeUtf8? bytes with
    | some data => .ok (Status.ok, data)
    | none => .error .notText

/-- The text of a design.  In a directory that has not been made, a name that is
too long is not found like any other. -/
def load (store : DirectoryStore) (name : String) : Except FileFault (Nat × String) :=
  if isValidName name then
    match nameFault? (fileName name), store.contents with
    | some .nameTooLong, none => .ok (Status.notFound, "")
    | some fault, _ => .error fault
    | none, _ => read (store.entries.get? (fileName name))
  else .ok (Status.badRequest, "")

/-- The design that a file holds, by the file's name. -/
def designOf? (fileName : String) : Option String :=
  let cs := fileName.toList
  let tail := ending.toList
  if tail.isSuffixOf cs then
    let name := cs.take (cs.length - tail.length)
    if name.head? = some '.' then none else some (String.ofList name)
  else none

/-- The names of the designs in order. -/
def list (store : DirectoryStore) : List String :=
  (store.entries.keys.filterMap designOf?).mergeSort (fun a b => decide (a ≤ b))

/-- The names of the files in order. -/
def files (store : DirectoryStore) : List String :=
  store.entries.entries.filterMap (fun entry =>
    match entry.2 with
    | .file _ => some entry.1
    | .folder => none)

end DirectoryStore

/-- A file's fault as a fault of the store. -/
def liftFileFault {α : Type} : Except FileFault α → Except TransportFault α
  | .ok answer => .ok answer
  | .error fault => .error (.file fault)

instance : DesignStore DirectoryStore where
  save store name data :=
    let (result, store) := store.save name data
    (liftFileFault result, store)
  load store name := (liftFileFault (store.load name), store)
  list store := (.ok store.list, store)

end CloudCanvas
