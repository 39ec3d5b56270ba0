import CloudCanvas.Dict
import CloudCanvas.Store

/-!
# A store in memory
-/

namespace CloudCanvas

/-- The texts of designs by name. -/
structure MemoryStore where
  designs : Dict String
deriving DecidableEq

namespace MemoryStore

/-- The store without designs. -/
def empty : MemoryStore := ⟨∅⟩

instance : EmptyCollection MemoryStore := ⟨empty⟩

/-- Keep a text under a name, unless the name cannot be one. -/
def save (store : MemoryStore) (name data : String) : Nat × MemoryStore :=
  if isValidName name then
    (if store.designs.contains name then Status.ok else Status.created,
      ⟨store.designs.insert name data⟩)
  else (Status.badRequest, store)

/-- The text under a name. -/
def load (store : MemoryStore) (name : String) : Nat × String :=
  match store.designs.get? name with
  | some data => (Status.ok, data)
  | none => (Status.notFound, "")

/-- The names in order. -/
def list (store : MemoryStore) : List String :=
  store.designs.keys

end MemoryStore

instance : DesignStore MemoryStore where
  save store name data :=
    let (status, store) := store.save name data
    (.ok status, store)
  load store name := (.ok (store.load name), store)
  list store := (.ok store.list, store)

end CloudCanvas
