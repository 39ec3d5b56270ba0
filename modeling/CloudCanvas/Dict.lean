/-!
# Dictionaries in key order

A dictionary keeps one value for each key, with its keys in strictly increasing
order of code points, so two dictionaries with the same contents are equal.

## Main definitions

* `Dict α`: the type.
* `Dict.get?`, `Dict.insert`, `Dict.erase`, `Dict.filter`, `Dict.ofList`.

`Dict.get?_insert` and `Dict.get?_erase` say what a change does to a look-up.
-/

namespace CloudCanvas

/-- A dictionary from texts, its entries sorted by key. -/
structure Dict (α : Type) where
  entries : List (String × α)
  sorted : entries.Pairwise (fun a b => a.1 < b.1)

namespace Dict

variable {α β : Type}

@[ext] theorem ext {d e : Dict α} (h : d.entries = e.entries) : d = e := by
  cases d; cases e; cases h; rfl

instance [DecidableEq α] : DecidableEq (Dict α) := fun d e =>
  decidable_of_iff (d.entries = e.entries) ⟨ext, congrArg entries⟩

/-- The dictionary without entries. -/
def empty : Dict α := ⟨[], .nil⟩

instance : EmptyCollection (Dict α) := ⟨empty⟩

instance : Inhabited (Dict α) := ⟨empty⟩

/-- Whether there are no entries. -/
def isEmpty (d : Dict α) : Bool :=
  d.entries.isEmpty

/-- How many entries there are. -/
def size (d : Dict α) : Nat :=
  d.entries.length

/-- The keys in increasing order. -/
def keys (d : Dict α) : List String :=
  d.entries.map Prod.fst

/-- The values in the order of their keys. -/
def values (d : Dict α) : List α :=
  d.entries.map Prod.snd

/-- The value kept for a key. -/
def get? (d : Dict α) (key : String) : Option α :=
  d.entries.lookup key

/-- Whether a key has a value. -/
def contains (d : Dict α) (key : String) : Bool :=
  (d.get? key).isSome

/-! ## Insertion -/

/-- Put an entry in its place among sorted entries, over the old one if there is
one. -/
def insertSorted (key : String) (value : α) : List (String × α) → List (String × α)
  | [] => [(key, value)]
  | entry :: rest =>
    if key < entry.1 then (key, value) :: entry :: rest
    else if key = entry.1 then (key, value) :: rest
    else entry :: insertSorted key value rest

theorem mem_insertSorted {key : String} {value : α} {entry : String × α}
    {entries : List (String × α)} (h : entry ∈ insertSorted key value entries) :
    entry = (key, value) ∨ entry ∈ entries := by
  fun_induction insertSorted key value entries with grind

theorem sorted_insertSorted {key : String} {value : α} {entries : List (String × α)}
    (h : entries.Pairwise (fun a b => a.1 < b.1)) :
    (insertSorted key value entries).Pairwise (fun a b => a.1 < b.1) := by
  fun_induction insertSorted key value entries with
  | case1 => simp
  | case2 head rest lt =>
    refine List.pairwise_cons.2 ⟨fun entry mem => ?_, h⟩
    rcases List.mem_cons.1 mem with rfl | mem
    · exact lt
    · exact String.lt_trans lt (List.rel_of_pairwise_cons h mem)
  | case3 head rest _ eq =>
    exact List.pairwise_cons.2
      ⟨fun entry mem => eq ▸ List.rel_of_pairwise_cons h mem, h.of_cons⟩
  | case4 head rest not_lt ne ih =>
    refine List.pairwise_cons.2 ⟨fun entry mem => ?_, ih h.of_cons⟩
    rcases mem_insertSorted mem with rfl | mem
    · exact Std.lt_of_le_of_ne (String.not_lt.1 not_lt) (Ne.symm ne)
    · exact List.rel_of_pairwise_cons h mem

/-- The dictionary with a value put under a key, in place of an old one. -/
def insert (d : Dict α) (key : String) (value : α) : Dict α :=
  ⟨insertSorted key value d.entries, sorted_insertSorted d.sorted⟩

/-- The dictionary of a list of entries; of two with one key the later counts. -/
def ofList (entries : List (String × α)) : Dict α :=
  entries.foldl (fun d entry => d.insert entry.1 entry.2) ∅

/-! ## Removal -/

/-- The entries that satisfy a condition. -/
def filter (keep : String → α → Bool) (d : Dict α) : Dict α :=
  ⟨d.entries.filter (fun entry => keep entry.1 entry.2), d.sorted.filter _⟩

/-- The dictionary without the entry of a key. -/
def erase (d : Dict α) (key : String) : Dict α :=
  d.filter (fun k _ => k != key)

/-! ## Look-ups -/

@[simp] theorem get?_empty (key : String) : (∅ : Dict α).get? key = none := rfl

private theorem lookup_insertSorted (key : String) (value : α) (k : String)
    (entries : List (String × α)) :
    (insertSorted key value entries).lookup k
      = if k = key then some value else entries.lookup k := by
  fun_induction insertSorted key value entries with grind

/-- An insertion changes the look-up of its own key and no other. -/
@[simp] theorem get?_insert (d : Dict α) (key : String) (value : α) (k : String) :
    (d.insert key value).get? k = if k = key then some value else d.get? k :=
  lookup_insertSorted key value k d.entries

private theorem lookup_filter_key (key k : String) (entries : List (String × α)) :
    (entries.filter (fun entry => entry.1 != key)).lookup k
      = if k = key then none else entries.lookup k := by
  induction entries with
  | nil => simp
  | cons head rest ih => grind

/-- A removal changes the look-up of its own key and no other. -/
@[simp] theorem get?_erase (d : Dict α) (key k : String) :
    (d.erase key).get? k = if k = key then none else d.get? k :=
  lookup_filter_key key k d.entries

end Dict

end CloudCanvas
