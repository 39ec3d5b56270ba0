import CloudCanvas.Store.Directory
import CloudCanvas.Store.Memory
import CloudCanvas.Store.Remote
import CloudCanvas.Store.Scripted

/-!
# Stores of every kind
-/

namespace CloudCanvas

/-- A store of one of the kinds. -/
inductive OpenStore where
  | memory (store : MemoryStore)
  | directory (store : DirectoryStore)
  | remote (store : RemoteStore)
  | scripted (store : ScriptedStore)

namespace OpenStore

/-- Ask the store inside, and put it back as it is afterwards. -/
def ask {α : Type} (store : OpenStore)
    (question : {σ : Type} → [DesignStore σ] → σ → Except TransportFault α × σ) :
    Except TransportFault α × OpenStore :=
  match store with
  | .memory inner => let (answer, inner) := question inner; (answer, .memory inner)
  | .directory inner => let (answer, inner) := question inner; (answer, .directory inner)
  | .remote inner => let (answer, inner) := question inner; (answer, .remote inner)
  | .scripted inner => let (answer, inner) := question inner; (answer, .scripted inner)

/-- The names of the files that a store has made. -/
def files : OpenStore → List String
  | .directory store => store.files
  | .memory _ | .remote _ | .scripted _ => []

end OpenStore

instance : DesignStore OpenStore where
  save store name data := store.ask (DesignStore.save · name data)
  load store name := store.ask (DesignStore.load · name)
  list store := store.ask DesignStore.list

end CloudCanvas
