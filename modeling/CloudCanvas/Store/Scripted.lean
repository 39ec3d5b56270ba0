import CloudCanvas.Store

/-!
# A store with prepared replies

Every call takes the next reply, whatever it asks for, so such a store can behave
like any store at all.
-/

namespace CloudCanvas

/-- A prepared reply. -/
inductive Reply where
  | fault (text : String)
  | answer (status : Nat) (body : String)
deriving DecidableEq

/-- The replies that are still to come. -/
structure ScriptedStore where
  replies : List Reply
deriving DecidableEq

namespace ScriptedStore

/-- The next reply; without one, the status 0 and an empty text. -/
def next (store : ScriptedStore) : Except TransportFault (Nat × String) × ScriptedStore :=
  match store.replies with
  | [] => (.ok (0, ""), store)
  | .fault text :: rest => (.error (.reported text), ⟨rest⟩)
  | .answer status body :: rest => (.ok (status, body), ⟨rest⟩)

end ScriptedStore

instance : DesignStore ScriptedStore where
  save store _ _ :=
    let (reply, store) := store.next
    (reply.map Prod.fst, store)
  load store _ := store.next
  list store :=
    let (reply, store) := store.next
    (reply.map (fun answer => [answer.2]), store)

end CloudCanvas
