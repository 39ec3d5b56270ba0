import CloudCanvas.Store

/-!
# A store behind an address

The designs of a remote store lie under its address, each at a segment of its
own.  The texts of addresses are read by whoever knows how; what is made of the
address that they stand for is the matter of the store.

## Main definitions

* `UrlReader`: how the texts of addresses are read.
* `RemoteStore.url`: the address of the designs, or of one of them.
* `RemoteStore.request`: what becomes of a request that no service answers.
-/

namespace CloudCanvas

/-- How the texts of addresses are read: each is an address or has a fault.  The address of a
design is made of whatever address is read. -/
abbrev UrlReader := String → Except UrlFault Url

/-- The reader at hand.  Without tables of international names it knows none of them. -/
def UrlReader.plain : UrlReader :=
  Url.parse (fun _ => none)

/-- A store by the address that was given for it. -/
structure RemoteStore where
  base : String
deriving DecidableEq

namespace RemoteStore

/-- The address of the designs, or of the one with a name. -/
def url (store : RemoteStore) (read : UrlReader) (name : Option String) :
    Except TransportFault Url :=
  match read store.base with
  | .error fault => .error (.badAddress store.base fault)
  | .ok base =>
    match base.push? ("designs" :: name.toList) with
    | some url => .ok url
    | none => .error (.noPath store.base)

/-- What becomes of a request to an address at which nobody answers. -/
def request (store : RemoteStore) (name : Option String) : TransportFault :=
  match store.url .plain name with
  | .error fault => fault
  | .ok url =>
    let address := url.anonymous.text
    if url.scheme = "http" || url.scheme = "https" then .noAnswer address
    else .unsupported address

end RemoteStore

/-- The store where no service can be reached, which is the only case of it here: all that
it is asked ends with the reason why nobody answers.  What services answer is not part of
it; what a session makes of any answers is stated for every store. -/
instance : DesignStore RemoteStore where
  save store name _ := (.error (store.request (some name)), store)
  load store name := (.error (store.request (some name)), store)
  list store := (.error (store.request none), store)

end CloudCanvas
