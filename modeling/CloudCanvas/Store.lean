import CloudCanvas.Text.Blank
import CloudCanvas.Url

/-!
# Design stores

A store keeps the texts of designs under names.  It answers with a status as a
web service does, whatever it really is: 2xx for success.

## Main definitions

* `TransportFault`: why a store could not be reached, and its wording.
* `DesignStore`: saving, loading and listing, as functions on the store's state.
* `isSuccess`, `isValidName`: statuses and names.
-/

namespace CloudCanvas

/-- Why a file could not be read or written. -/
inductive FileFault where
  | isDirectory
  | nameTooLong
  | nulInName
  | notText
deriving DecidableEq

/-- The wording of a fault. -/
def FileFault.message : FileFault → String
  | .isDirectory => "Is a directory (os error 21)"
  | .nameTooLong => "File name too long (os error 36)"
  | .nulInName => "file name contained an unexpected NUL byte"
  | .notText => "stream did not contain valid UTF-8"

/-- Why a store could not be reached. -/
inductive TransportFault where
  | file (fault : FileFault)
  | badAddress (base : String) (fault : UrlFault)
  | noPath (base : String)
  /-- The scheme of the address is not one that requests are sent by. -/
  | unsupported (address : String)
  /-- Nobody answered. -/
  | noAnswer (address : String)
  | reported (text : String)
deriving DecidableEq

/-- The wording of a fault. -/
def TransportFault.message : TransportFault → String
  | .file fault => fault.message
  | .badAddress base fault => "bad store url '" ++ base ++ "': " ++ fault.message
  | .noPath base => "store url '" ++ base ++ "' cannot take a path"
  | .unsupported address => "builder error for url (" ++ address ++ ")"
  | .noAnswer address => "error sending request for url (" ++ address ++ ")"
  | .reported text => text

/-- What a store can be asked.  The answers are a status, a status with a text,
and names; with each comes the store as it is afterwards. -/
class DesignStore (σ : Type) where
  save : σ → (name data : String) → Except TransportFault Nat × σ
  load : σ → (name : String) → Except TransportFault (Nat × String) × σ
  list : σ → Except TransportFault (List String) × σ

namespace Status

/-- A design was replaced, or found. -/
def ok : Nat := 200

/-- A design was saved under a new name. -/
def created : Nat := 201

/-- The name cannot be one. -/
def badRequest : Nat := 400

/-- There is no design with the name. -/
def notFound : Nat := 404

end Status

/-- Whether a status says that all went well. -/
def isSuccess (status : Nat) : Bool :=
  decide (200 ≤ status) && decide (status ≤ 299)

/-- Whether a local store takes a name: not blank, not hidden, and no path. -/
def isValidName (name : String) : Bool :=
  !isAllBlank name && name.toList.head? != some '.'
    && !name.toList.any (fun c => c == '/' || c == '\\')

end CloudCanvas
