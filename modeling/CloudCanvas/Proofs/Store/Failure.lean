import CloudCanvas.Proofs.Store.Directory

/-!
# Designs that are not saved

A save writes to a hidden file before it touches the design's own, so a save that fails may
have made the directory and left the hidden file, and nothing else.  Neither is seen by who
lists the designs or loads one.

## Main definitions

* `DirectoryStore.IsSaved`: the answers that say that a design was saved.
* `DirectoryStore.Obstacle`: what keeps a design from being saved.
* `DirectoryStore.SeenAlike`: two directories are listed and loaded from alike.

The main statement is `DirectoryStore.seenAlike_of_not_isSaved`.
-/

namespace CloudCanvas

/-- A row of which only what has one key may be different is the same to who passes that key
over. -/
theorem Dict.filterMap_keys_eq {α β : Type} {d e : Dict α} {read : String → Option β}
    {hidden : String} (unread : read hidden = none)
    (same : ∀ key, key ≠ hidden → d.get? key = e.get? key) :
    d.keys.filterMap read = e.keys.filterMap read := by
  have passed : ∀ d : Dict α, (d.erase hidden).keys.filterMap read = d.keys.filterMap read := by
    intro d
    rw [keys, keys, List.filterMap_map, List.filterMap_map, erase, filter, List.filterMap_filter]
    refine List.filterMap_congr fun entry _ => ?_
    by_cases key : entry.1 = hidden
    · simp [key, unread]
    · simp [key]
  have erased : d.erase hidden = e.erase hidden := by
    refine ext_get? fun key => ?_
    rw [get?_erase, get?_erase]
    by_cases eq : key = hidden
    · rw [if_pos eq, if_pos eq]
    · rw [if_neg eq, if_neg eq, same key eq]
  rw [← passed d, erased, passed e]

namespace DirectoryStore

variable {store : DirectoryStore} {entries : Dict Entry} {name file data : String}

/-! ## What a failure leaves behind -/

/-- The answers that say that a design was saved. -/
def IsSaved (answer : Except TransportFault ℕ) : Prop :=
  answer = .ok Status.ok ∨ answer = .ok Status.created

/-- **What keeps a design from being saved**: a name that no design can have, that no file can
have, or that is too long for one of the two files, or a directory in the place of one of
them. -/
inductive Obstacle (store : DirectoryStore) (name : String) : Prop
  | invalid (name : isValidName name = false)
  | nul (mem : '\x00' ∈ name.toList)
  | long (length : 238 < utf8Length name)
  | draft (folder : store.entries.get? (draftName name) = some .folder)
  | design (folder : store.entries.get? (fileName name) = some .folder)

/-- Without an obstacle a design is saved. -/
theorem isSaved_of_not_obstacle (free : ¬ store.Obstacle name) (data : String) :
    IsSaved (DesignStore.save store name data).1 := by
  have valid : isValidName name = true := by
    by_contra invalid
    exact free (.invalid (by simpa using invalid))
  have fits : Fits name :=
    ⟨fun nul => free (.nul nul), Nat.not_lt.1 fun long => free (.long long)⟩
  obtain ⟨renamed, replaced, -⟩ := replace_spec fits (fun folder => free (.draft folder))
    (fun folder => free (.design folder)) data
  have saved : (DesignStore.save store name data).1 =
      .ok (if store.entries.contains (fileName name) then Status.ok else Status.created) := by
    simp only [DesignStore.save, save, if_pos valid, replaced, liftFileFault]
  rw [saved]
  split
  · exact .inl rfl
  · exact .inr rfl

/-- If something cannot be replaced, at most the hidden file is different. -/
theorem replace_of_obstacle (valid : isValidName name = true) (obstacle : store.Obstacle name)
    (data : String) : ∃ fault after, replace store.entries name data = (.error fault, after) ∧
      ∀ file, file ≠ draftName name → after.get? file = store.entries.get? file := by
  rw [replace]
  cases nameFault? (fileName name) with
  | some fault => exact ⟨fault, _, rfl, fun _ _ => rfl⟩
  | none =>
      cases possible : nameFault? (draftName name) with
      | some fault => exact ⟨fault, _, by simp [write, possible], fun _ _ => rfl⟩
      | none =>
          by_cases blocked : store.entries.get? (draftName name) = some .folder
          · exact ⟨.isDirectory, _, by simp [write, possible, blocked], fun _ _ => rfl⟩
          · -- all that is left is a directory in the place of the design itself
            have folder : store.entries.get? (fileName name) = some .folder := by
              obtain ⟨clean, short⟩ := nameFault?_draftName_eq_none_iff.1 possible
              cases obstacle with
              | invalid invalid => simp [valid] at invalid
              | nul nul => exact absurd nul clean
              | long long => exact absurd short (Nat.not_le.2 long)
              | draft folder => exact absurd folder blocked
              | design folder => exact folder
            have ne : fileName name ≠ draftName name := Ne.symm draftName_ne_fileName
            refine ⟨.isDirectory, store.entries.insert (draftName name) (.file data.toUTF8), ?_,
              fun file other => by rw [Dict.get?_insert, if_neg other]⟩
            simp [write_eq_ok possible blocked, rename, ne, folder]

/-- With an obstacle a design is not saved, and at most the hidden file is different. -/
theorem save_of_obstacle (obstacle : store.Obstacle name) (data : String) :
    ¬ IsSaved (DesignStore.save store name data).1 ∧
      ∀ file, file ≠ draftName name →
        (DesignStore.save store name data).2.entries.get? file = store.entries.get? file := by
  by_cases valid : isValidName name = true
  · obtain ⟨fault, after, replaced, same⟩ := replace_of_obstacle valid obstacle data
    have saved : DesignStore.save store name data = (.error (.file fault), ⟨some after⟩) := by
      simp only [DesignStore.save, save, if_pos valid, replaced, liftFileFault]
    rw [saved]
    exact ⟨by simp [IsSaved], same⟩
  · have refused : DesignStore.save store name data = (.ok Status.badRequest, store) := by
      simp only [DesignStore.save, save, if_neg valid, liftFileFault]
    rw [refused]
    exact ⟨by simp [IsSaved, Status.badRequest, Status.ok, Status.created], fun _ _ => rfl⟩

/-! ## What is seen of a directory -/

/-- Two directories are listed alike, and alike are the answers to who loads a design whose
name is short enough for a file. -/
structure SeenAlike (before after : DirectoryStore) : Prop where
  list_eq : (DesignStore.list after).1 = (DesignStore.list before).1
  load_eq : ∀ name, utf8Length name ≤ 243 →
    (DesignStore.load after name).1 = (DesignStore.load before name).1

/-- A name that is short enough for a file is looked for whether or not there is a
directory. -/
theorem load_of_length_le (short : utf8Length name ≤ 243) :
    store.load name =
      if isValidName name then
        match nameFault? (fileName name) with
        | some fault => .error fault
        | none => read (store.entries.get? (fileName name))
      else .ok (Status.badRequest, "") := by
  rw [load]
  by_cases nul : '\x00' ∈ name.toList
  · have impossible : nameFault? (fileName name) = some .nulInName := by
      rw [nameFault?, if_pos (by simp [toList_fileName, nul])]
    rw [impossible]
  · rw [nameFault?_fileName_eq_none_iff.2 ⟨nul, short⟩]

/-- Who lists designs and loads them does not see a hidden file. -/
theorem seenAlike_of_get?_eq {before after : DirectoryStore}
    (same : ∀ file, file ≠ draftName name → after.entries.get? file = before.entries.get? file) :
    SeenAlike before after where
  list_eq := by
    have keys := Dict.filterMap_keys_eq designOf?_draftName same
    simp only [DesignStore.list, list, keys]
  load_eq := by
    intro other short
    have file := same (fileName other) (Ne.symm draftName_ne_fileName)
    simp only [DesignStore.load, load_of_length_le short, file]

/-- **A save that fails is not seen.**  A design is saved unless there is an obstacle, and if it
is not, the directory is listed and loaded from as before. -/
theorem seenAlike_of_not_isSaved (store : DirectoryStore) (name data : String) :
    (¬ IsSaved (DesignStore.save store name data).1 ↔ store.Obstacle name) ∧
      (¬ IsSaved (DesignStore.save store name data).1 →
        SeenAlike store (DesignStore.save store name data).2) := by
  have obstacle_of_not : ¬ IsSaved (DesignStore.save store name data).1 → store.Obstacle name :=
    fun failed => by_contra fun free => failed (isSaved_of_not_obstacle free data)
  refine ⟨⟨obstacle_of_not, fun obstacle => (save_of_obstacle obstacle data).1⟩, fun failed => ?_⟩
  exact seenAlike_of_get?_eq (save_of_obstacle (obstacle_of_not failed) data).2

/-- A directory in the place of a design: the hidden file is left behind, and what is listed
and loaded stays as it was. -/
theorem seenAlike_of_not_isSaved_leftover :
    let store : DirectoryStore := ⟨some (.ofList [(fileName "hub", .folder),
      (fileName "edge", .file "1".toUTF8), ("notes.txt", .file "2".toUTF8)])⟩
    let after := (DesignStore.save store "hub" "3").2
    ¬ IsSaved (DesignStore.save store "hub" "3").1 ∧
      after.entries.keys =
        [".hub.design.json.tmp", "edge.design.json", "hub.design.json", "notes.txt"] ∧
      SeenAlike store after := by
  intro store after
  obtain ⟨failed_iff, unseen⟩ := seenAlike_of_not_isSaved store "hub" "3"
  have folder : store.entries.get? (fileName "hub") = some .folder := by
    change (Dict.ofList _).get? _ = _
    rw [Dict.get?_ofList (by decide)]
    rfl
  have failed := failed_iff.2 (.design folder)
  exact ⟨failed, by decide +kernel, unseen failed⟩

end DirectoryStore

end CloudCanvas
