import CloudCanvas.Json.Record
import CloudCanvas.Proofs.Json.Text

/-!
# Values come back from their trees

The tree of a value has no unreadable part, and reading it gives the value.  What is read
from any tree is not nested deeper than that tree.

The main statements are `Value.ofJson?_json`, `Value.ofMembers?_members` and
`Value.depth_le_of_ofJson?`.
-/

namespace CloudCanvas

/-- An entry whose key is the greatest is put behind the others. -/
theorem Dict.insertSorted_of_lt {α : Type} {key : String} {value : α}
    {entries : List (String × α)} (h : ∀ entry ∈ entries, entry.1 < key) :
    insertSorted key value entries = entries ++ [(key, value)] := by
  induction entries with
  | nil => rfl
  | cons entry rest ih =>
      obtain ⟨lt, later⟩ := List.forall_mem_cons.1 h
      have notBefore : ¬ key < entry.1 := fun gt => String.lt_irrefl _ (String.lt_trans lt gt)
      have ne : key ≠ entry.1 := fun eq => String.lt_irrefl _ (eq ▸ lt)
      rw [insertSorted, if_neg notBefore, if_neg ne, ih later, List.cons_append]

namespace Json

mutual

theorem readable_of_isCanonical (json : Json) (h : json.isCanonical = true) :
    json.readable = true := by
  cases json with
  | array items => exact readableItems_of_isCanonical items h
  | object members =>
      exact readableMembers_of_isCanonical members (Bool.and_eq_true_iff.1 h).2
  | unreadable => cases h
  | _ => rfl

theorem readableItems_of_isCanonical (items : List Json) (h : isCanonicalItems items = true) :
    readableItems items = true := by
  cases items with
  | nil => rfl
  | cons item items =>
      obtain ⟨hitem, hitems⟩ := Bool.and_eq_true_iff.1 h
      exact Bool.and_eq_true_iff.2
        ⟨readable_of_isCanonical item hitem, readableItems_of_isCanonical items hitems⟩

theorem readableMembers_of_isCanonical (members : List (String × Json))
    (h : isCanonicalMembers members = true) : readableMembers members = true := by
  cases members with
  | nil => rfl
  | cons member members =>
      obtain ⟨hvalue, hmembers⟩ := Bool.and_eq_true_iff.1 h
      exact Bool.and_eq_true_iff.2
        ⟨readable_of_isCanonical member.2 hvalue, readableMembers_of_isCanonical members hmembers⟩

end

end Json

namespace Value

@[ext] theorem ext {v w : Value} (h : v.json = w.json) : v = w := by
  cases v
  cases w
  cases h
  rfl

theorem members_injective {d e : Dict Value} (h : members d = members e) : d = e := by
  refine Dict.ext ((List.map_inj_right fun a b same => ?_).1 h)
  obtain ⟨key, json⟩ := Prod.mk.inj same
  exact Prod.ext key (Value.ext json)

theorem members_insert_of_lt {d : Dict Value} {key : String} {value : Value}
    (h : ∀ entry ∈ d.entries, entry.1 < key) :
    members (d.insert key value) = members d ++ [(key, value.json)] := by
  have entries : (d.insert key value).entries = d.entries ++ [(key, value)] :=
    Dict.insertSorted_of_lt h
  rw [members, entries, List.map_append]
  rfl

mutual

/-- A canonical tree is read as its value. -/
theorem ofJson?_of_isCanonical (json : Json) (h : json.isCanonical = true) :
    ofJson? json = some ⟨json, h⟩ := by
  cases json with
  | array items =>
      obtain ⟨values, read, same⟩ := ofItems?_of_isCanonical items h
      rw [ofJson?, read, Option.map_some]
      exact congrArg some (Value.ext (congrArg Json.array same))
  | object members =>
      obtain ⟨sorted, canonical⟩ := Bool.and_eq_true_iff.1 h
      obtain ⟨d, read, same⟩ := ofMembers?_of_isCanonical members (of_decide_eq_true sorted)
        canonical ∅ (by simp [EmptyCollection.emptyCollection, Dict.empty])
      rw [ofJson?, read, Option.map_some]
      exact congrArg some (Value.ext (congrArg Json.object same))
  | unreadable => cases h
  | _ => rfl

theorem ofItems?_of_isCanonical (items : List Json) (h : Json.isCanonicalItems items = true) :
    ∃ values, ofItems? items = some values ∧ values.map json = items := by
  cases items with
  | nil => exact ⟨[], rfl, rfl⟩
  | cons item items =>
      obtain ⟨hitem, hitems⟩ := Bool.and_eq_true_iff.1 h
      obtain ⟨values, read, same⟩ := ofItems?_of_isCanonical items hitems
      refine ⟨⟨item, hitem⟩ :: values, ?_, by rw [List.map_cons, same]⟩
      rw [ofItems?, ofJson?_of_isCanonical item hitem, read]
      rfl

/-- Members in the order of their keys are put one behind the other. -/
theorem ofMembers?_of_isCanonical (members : List (String × Json))
    (sorted : (members.map Prod.fst).Pairwise (· < ·))
    (h : Json.isCanonicalMembers members = true) (d : Dict Value)
    (above : ∀ member ∈ members, ∀ entry ∈ d.entries, entry.1 < member.1) :
    ∃ read, ofMembers? d members = some read ∧
      Value.members read = Value.members d ++ members := by
  cases members with
  | nil => exact ⟨d, rfl, (List.append_nil _).symm⟩
  | cons member members =>
      obtain ⟨key, json⟩ := member
      obtain ⟨hvalue, hmembers⟩ := Bool.and_eq_true_iff.1 h
      obtain ⟨first, later⟩ := List.forall_mem_cons.1 above
      obtain ⟨least, sorted⟩ := List.pairwise_cons.1 sorted
      have behind : ∀ member ∈ members, ∀ entry ∈ (d.insert key ⟨json, hvalue⟩).entries,
          entry.1 < member.1 := by
        intro member mem entry inserted
        rcases Dict.mem_insertSorted inserted with rfl | old
        · exact least _ (List.mem_map_of_mem mem)
        · exact later member mem entry old
      obtain ⟨read, eq, same⟩ := ofMembers?_of_isCanonical members sorted hmembers _ behind
      refine ⟨read, ?_, ?_⟩
      · rw [ofMembers?, ofJson?_of_isCanonical json hvalue]
        exact eq
      · rw [same, members_insert_of_lt first, List.append_assoc, List.singleton_append]

end

/-- **A value comes back from its tree.** -/
theorem ofJson?_json (v : Value) : ofJson? v.json = some v :=
  ofJson?_of_isCanonical v.json v.canonical

/-- **A dictionary of values comes back from its members.** -/
theorem ofMembers?_members (d : Dict Value) : ofMembers? ∅ (members d) = some d := by
  have canonical := (object d).canonical
  obtain ⟨sorted, all⟩ := Bool.and_eq_true_iff.1 canonical
  obtain ⟨read, eq, same⟩ := ofMembers?_of_isCanonical (members d) (of_decide_eq_true sorted) all
    ∅ (by simp [EmptyCollection.emptyCollection, Dict.empty])
  rw [eq]
  exact congrArg some (members_injective same)

theorem readable_object (d : Dict Value) : (Json.object (members d)).readable = true :=
  Json.readable_of_isCanonical _ (object d).canonical

end Value

/-! ## Depth -/

theorem Json.depthMembers_le_iff {members : List (String × Json)} {room : ℕ} :
    depthMembers members ≤ room ↔ ∀ member ∈ members, member.2.depth ≤ room := by
  induction members with
  | nil => simp [depthMembers]
  | cons member members ih => simp [depthMembers, ih]

namespace Value

mutual

/-- **What a tree means is not nested deeper than the tree.** -/
theorem depth_le_of_ofJson? (tree : Json) {v : Value} (h : ofJson? tree = some v) :
    v.json.depth ≤ tree.depth := by
  cases tree with
  | array items =>
      obtain ⟨values, read, rfl⟩ := Option.map_eq_some_iff.1 h
      exact Nat.succ_le_succ (depthItems_le_of_ofItems? items read)
  | object members =>
      obtain ⟨d, read, rfl⟩ := Option.map_eq_some_iff.1 h
      refine Nat.succ_le_succ (depthMembers_le_of_ofMembers? members read ?_ le_rfl)
      exact Nat.zero_le _
  | unreadable => cases h
  | _ =>
      cases h
      exact le_rfl

theorem depthItems_le_of_ofItems? (items : List Json) {values : List Value}
    (h : ofItems? items = some values) :
    Json.depthItems (values.map json) ≤ Json.depthItems items := by
  cases items with
  | nil =>
      cases h
      exact le_rfl
  | cons item items =>
      simp only [ofItems?, Option.bind_eq_bind, Option.bind_eq_some_iff] at h
      obtain ⟨value, first, values, later, same⟩ := h
      cases same
      exact max_le_max (depth_le_of_ofJson? item first) (depthItems_le_of_ofItems? items later)

/-- A member that is put in place of another may only take depth away, so the bound is on
what is there before and what is put in. -/
theorem depthMembers_le_of_ofMembers? (trees : List (String × Json)) {d read : Dict Value}
    {room : ℕ} (h : ofMembers? d trees = some read) (old : Json.depthMembers (members d) ≤ room)
    (new : Json.depthMembers trees ≤ room) : Json.depthMembers (members read) ≤ room := by
  cases trees with
  | nil =>
      cases h
      exact old
  | cons tree trees =>
      obtain ⟨key, tree⟩ := tree
      simp only [ofMembers?, Option.bind_eq_bind, Option.bind_eq_some_iff] at h
      obtain ⟨value, first, later⟩ := h
      obtain ⟨here, new⟩ := max_le_iff.1 new
      refine depthMembers_le_of_ofMembers? trees later ?_ new
      rw [Json.depthMembers_le_iff, members, List.forall_mem_map] at old ⊢
      intro entry mem
      rcases Dict.mem_insertSorted mem with rfl | kept
      · exact (depth_le_of_ofJson? tree first).trans here
      · exact old entry kept

end

end Value

end CloudCanvas
