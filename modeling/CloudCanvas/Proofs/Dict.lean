import CloudCanvas.Dict
import Mathlib.Data.List.Nodup

/-!
# Dictionaries from lists of entries

Of entries that are put in one after another the last with a key counts, so a list without
two equal keys is what its dictionary holds.

The main statements are `Dict.get?_foldl_insert` and `Dict.mem_entries_ofList_iff`.
-/

namespace CloudCanvas

variable {α : Type}

/-- In a list without two equal keys an entry is what its key leads to. -/
theorem lookup_eq_some_iff_mem {entries : List (String × α)} {key : String} {value : α}
    (nodup : (entries.map Prod.fst).Nodup) :
    entries.lookup key = some value ↔ (key, value) ∈ entries := by
  induction entries with
  | nil => simp
  | cons entry entries ih =>
      obtain ⟨k, v⟩ := entry
      rw [List.map_cons, List.nodup_cons] at nodup
      by_cases same : key = k
      · subst same
        have alone : (key, value) ∉ entries := fun mem =>
          nodup.1 (List.mem_map.2 ⟨_, mem, rfl⟩)
        simp [alone, eq_comm]
      · rw [List.lookup_cons, beq_false_of_ne same, List.mem_cons, ← ih nodup.2]
        simp [same]

theorem mem_of_lookup_eq_some {entries : List (String × α)} {key : String} {value : α}
    (h : entries.lookup key = some value) : (key, value) ∈ entries := by
  obtain ⟨before, after, split, -⟩ := List.lookup_eq_some_iff.1 h
  simp [split]

theorem isSome_lookup_reverse_iff {entries : List (String × α)} {key : String} :
    (entries.reverse.lookup key).isSome = true ↔ key ∈ entries.map Prod.fst := by
  rw [List.lookup_isSome_iff]
  constructor
  · intro ⟨entry, mem, same⟩
    exact List.mem_map.2 ⟨entry, List.mem_reverse.1 mem, (eq_of_beq same).symm⟩
  · intro listed
    obtain ⟨entry, mem, rfl⟩ := List.mem_map.1 listed
    exact ⟨entry, List.mem_reverse.2 mem, beq_self_eq_true _⟩

namespace Dict

variable {d : Dict α} {entries : List (String × α)} {key : String}

theorem nodup_keys (d : Dict α) : (d.entries.map Prod.fst).Nodup := by
  rw [List.Nodup, List.pairwise_map]
  refine d.sorted.imp ?_
  intro first second lt eq
  exact String.lt_irrefl _ (eq ▸ lt)

/-- The entries of a dictionary are what its look-ups give. -/
theorem mem_entries_iff {entry : String × α} :
    entry ∈ d.entries ↔ d.get? entry.1 = some entry.2 :=
  (lookup_eq_some_iff_mem d.nodup_keys).symm

theorem get?_filter {keep : String → α → Bool} :
    (d.filter keep).get? key = (d.get? key).filter (keep key) := by
  refine Option.ext fun value => ?_
  have listed : (key, value) ∈ (d.filter keep).entries ↔
      (d.filter keep).get? key = some value := mem_entries_iff
  rw [← listed, filter, List.mem_filter, mem_entries_iff, Option.filter_eq_some_iff]

theorem mem_keys_iff : key ∈ d.keys ↔ (d.get? key).isSome = true := by
  rw [keys, List.mem_map, Option.isSome_iff_exists]
  constructor
  · intro ⟨entry, mem, eq⟩
    exact ⟨entry.2, eq ▸ mem_entries_iff.1 mem⟩
  · intro ⟨value, found⟩
    exact ⟨(key, value), mem_entries_iff.2 found, rfl⟩

/-- Dictionaries that know the same keys list them in the same order. -/
theorem keys_eq_of_mem_iff {β : Type} {e : Dict β} (same : ∀ key, key ∈ d.keys ↔ key ∈ e.keys) :
    d.keys = e.keys := by
  have sorted : ∀ {γ : Type} (f : Dict γ), f.keys.Pairwise (· < ·) := fun f =>
    List.pairwise_map.2 f.sorted
  refine List.Perm.eq_of_pairwise (fun _ _ _ _ lt gt => absurd gt (String.lt_asymm lt))
    (sorted d) (sorted e) ?_
  exact (List.perm_ext_iff_of_nodup d.nodup_keys e.nodup_keys).2 same

/-- Dictionaries in which every key leads to the same are equal. -/
theorem ext_get? {e : Dict α} (same : ∀ key, d.get? key = e.get? key) : d = e := by
  refine Dict.ext (List.Perm.eq_of_pairwise
    (fun _ _ _ _ lt gt => absurd gt (String.lt_asymm lt)) d.sorted e.sorted ?_)
  refine (List.perm_ext_iff_of_nodup (List.Nodup.of_map _ d.nodup_keys)
    (List.Nodup.of_map _ e.nodup_keys)).2 ?_
  intro entry
  rw [mem_entries_iff, mem_entries_iff, same]

@[simp] theorem contains_insert {value : α} {k : String} :
    (d.insert key value).contains k = true ↔ k = key ∨ d.contains k = true := by
  rw [contains, contains, get?_insert]
  by_cases same : k = key <;> simp [same]

/-- An insertion adds an entry unless there is one with its key. -/
theorem size_insert (d : Dict α) (key : String) (value : α) :
    (d.insert key value).size = if d.contains key then d.size else d.size + 1 := by
  have listed : ∀ k, k ∈ (d.insert key value).keys ↔ k = key ∨ k ∈ d.keys := by
    intro k
    rw [mem_keys_iff, mem_keys_iff]
    exact contains_insert
  have length : ∀ e : Dict α, e.size = e.keys.length := fun e => by rw [size, keys, List.length_map]
  rw [length, length]
  by_cases there : d.contains key = true
  · have same := (List.perm_ext_iff_of_nodup (nodup_keys (d.insert key value)) (nodup_keys d)).2
      fun k => (listed k).trans (or_iff_right_of_imp fun same => same ▸ mem_keys_iff.2 there)
    rw [if_pos there]
    exact same.length_eq
  · have fresh : (key :: d.keys).Nodup :=
      List.nodup_cons.2 ⟨fun mem => there (mem_keys_iff.1 mem), nodup_keys d⟩
    have more := (List.perm_ext_iff_of_nodup (nodup_keys (d.insert key value)) fresh).2
      fun k => (listed k).trans List.mem_cons.symm
    rw [if_neg there]
    exact more.length_eq

/-- **Of entries put in one after another the last with a key counts.** -/
theorem get?_foldl_insert (entries : List (String × α)) (d : Dict α) (key : String) :
    (entries.foldl (fun d entry => d.insert entry.1 entry.2) d).get? key =
      (entries.reverse.lookup key).or (d.get? key) := by
  induction entries generalizing d with
  | nil => rfl
  | cons entry entries ih =>
      obtain ⟨k, v⟩ := entry
      rw [List.foldl_cons, ih, get?_insert, List.reverse_cons, List.lookup_append, Option.or_assoc]
      by_cases same : key = k
      · simp [same]
      · simp [List.lookup_cons, same, beq_false_of_ne same]

/-- The last entry with a key counts. -/
theorem get?_foldl_insert_of_last {before after : List (String × α)} {value : α}
    (split : entries = before ++ (key, value) :: after) (last : key ∉ after.map Prod.fst) :
    (entries.foldl (fun d entry => d.insert entry.1 entry.2) d).get? key = some value := by
  have none : after.reverse.lookup key = none := by
    rw [← Option.not_isSome_iff_eq_none, isSome_lookup_reverse_iff]
    exact last
  rw [get?_foldl_insert, split, List.reverse_append, List.reverse_cons, List.append_assoc,
    List.lookup_append, none]
  simp

theorem get?_foldl_insert_of_notMem (absent : key ∉ entries.map Prod.fst) :
    (entries.foldl (fun d entry => d.insert entry.1 entry.2) d).get? key = d.get? key := by
  have none : entries.reverse.lookup key = none := by
    rw [← Option.not_isSome_iff_eq_none, isSome_lookup_reverse_iff]
    exact absent
  rw [get?_foldl_insert, none, Option.none_or]

theorem contains_foldl_insert :
    (entries.foldl (fun d entry => d.insert entry.1 entry.2) d).contains key = true ↔
      d.contains key = true ∨ key ∈ entries.map Prod.fst := by
  rw [contains, get?_foldl_insert, Option.isSome_or, Bool.or_eq_true, isSome_lookup_reverse_iff,
    or_comm, contains]

/-- A list without two equal keys is what its dictionary holds. -/
theorem get?_ofList (nodup : (entries.map Prod.fst).Nodup) :
    (ofList entries).get? key = entries.lookup key := by
  rw [ofList, get?_foldl_insert, get?_empty, Option.or_none]
  refine Option.ext fun value => ?_
  rw [lookup_eq_some_iff_mem nodup, lookup_eq_some_iff_mem, List.mem_reverse]
  rw [List.map_reverse]
  exact (List.reverse_perm _).nodup_iff.2 nodup

theorem ofList_entries (d : Dict α) : ofList d.entries = d :=
  ext_get? fun _ => get?_ofList d.nodup_keys

/-- Whatever a dictionary holds is from the list that it was made of. -/
theorem mem_of_mem_entries_ofList {entry : String × α} (h : entry ∈ (ofList entries).entries) :
    entry ∈ entries := by
  rw [mem_entries_iff, ofList, get?_foldl_insert, get?_empty, Option.or_none] at h
  exact List.mem_reverse.1 (mem_of_lookup_eq_some h)

theorem mem_entries_ofList_iff {entry : String × α} (nodup : (entries.map Prod.fst).Nodup) :
    entry ∈ (ofList entries).entries ↔ entry ∈ entries := by
  rw [mem_entries_iff, get?_ofList nodup, lookup_eq_some_iff_mem nodup]

end Dict

end CloudCanvas
