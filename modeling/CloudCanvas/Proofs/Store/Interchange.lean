import CloudCanvas.Proofs.Store.Directory
import CloudCanvas.Store.Memory
import Mathlib.Data.List.Forall2
import Mathlib.Data.List.Nodup
import Mathlib.Data.List.Perm.Basic

/-!
# A directory in the place of memory

A store in a directory that has not been made yet answers as an empty store in memory does, call by
call, for names that fit into the names of files.  Only a name that no design can have is not found
in memory, and refused by the directory.

## Main definitions

* `StoreCall`, `StoreAnswer`, `StoreCall.transcript`: what a store is asked and what it answers.
* `StoreCall.Accord`: the answers of the two stores agree.
* `DirectoryStore.Mirrors`: the files are those of the designs in memory.

The main statement is `StoreCall.transcripts_accord`.
-/

namespace CloudCanvas

variable {σ : Type}

/-- What a store is asked. -/
inductive StoreCall where
  | save (name data : String)
  | load (name : String)
  | list

/-- What a store answers. -/
inductive StoreAnswer where
  | saved (reply : Except TransportFault ℕ)
  | loaded (reply : Except TransportFault (ℕ × String))
  | listed (reply : Except TransportFault (List String))
deriving DecidableEq

namespace StoreCall

/-- Ask a store. -/
def perform [DesignStore σ] (store : σ) : StoreCall → StoreAnswer × σ
  | save name data => (DesignStore.save store name data).map .saved id
  | load name => (DesignStore.load store name).map .loaded id
  | list => (DesignStore.list store).map .listed id

/-- Ask a store one thing after another, and note what it answers. -/
def transcript [DesignStore σ] (store : σ) : List StoreCall → List (StoreCall × StoreAnswer)
  | [] => []
  | call :: calls =>
    let (answer, next) := call.perform store
    (call, answer) :: transcript next calls

/-- Whether the name in a call fits into the names of files. -/
def Fits : StoreCall → Prop
  | save name _ | load name => DirectoryStore.Fits name
  | list => True

/-- Whether a call asks for a design under a name that none can have. -/
def asksInvalid : StoreCall → Bool
  | load name => !isValidName name
  | save _ _ | list => false

/-- The answers to one call agree: they are the same, except that memory does not find what the
directory refuses to look for. -/
def Accord (kept filed : StoreCall × StoreAnswer) : Prop :=
  kept.1 = filed.1 ∧
    if kept.1.asksInvalid then
      kept.2 = .loaded (.ok (Status.notFound, "")) ∧
        filed.2 = .loaded (.ok (Status.badRequest, ""))
    else kept.2 = filed.2

end StoreCall

namespace DirectoryStore

variable {kept : MemoryStore} {filed : DirectoryStore} {name data file : String}

/-- The files of a directory are those of the designs in memory, and there is nothing else. -/
structure Mirrors (filed : DirectoryStore) (kept : MemoryStore) : Prop where
  design : ∀ name, filed.entries.get? (fileName name) =
    (kept.designs.get? name).map fun data => .file data.toUTF8
  only : ∀ file, filed.entries.contains file = true →
    ∃ name, isValidName name = true ∧ fileName name = file

theorem mirrors_empty : Mirrors ⟨none⟩ .empty :=
  ⟨fun _ => rfl, nofun⟩

namespace Mirrors

theorem contains_fileName (h : filed.Mirrors kept) (name : String) :
    filed.entries.contains (fileName name) = kept.designs.contains name := by
  rw [Dict.contains, Dict.contains, h.design, Option.isSome_map]

theorem isValidName_of_contains (h : filed.Mirrors kept)
    (found : kept.designs.contains name = true) : isValidName name = true := by
  obtain ⟨other, valid, same⟩ := h.only _ (by rwa [h.contains_fileName])
  exact fileName_injective same ▸ valid

theorem get?_draftName (h : filed.Mirrors kept) (name : String) :
    filed.entries.get? (draftName name) = none := by
  rw [← Option.not_isSome_iff_eq_none]
  intro found
  obtain ⟨other, -, same⟩ := h.only _ found
  exact draftName_ne_fileName same.symm

/-! ## Saving -/

theorem save_eq (h : filed.Mirrors kept) (fits : Fits name) (data : String) :
    (filed.save name data).1 = .ok (kept.save name data).1 ∧
      (filed.save name data).2.Mirrors (kept.save name data).2 := by
  rw [save, MemoryStore.save]
  by_cases valid : isValidName name = true
  · have unobstructed : filed.entries.get? (fileName name) ≠ some .folder := by
      rw [h.design]
      cases kept.designs.get? name <;> nofun
    obtain ⟨renamed, replaced, get?_eq⟩ :=
      replace_spec fits (by simp [h.get?_draftName]) unobstructed data
    rw [if_pos valid, if_pos valid, replaced, h.contains_fileName]
    refine ⟨rfl, fun other => ?_, fun file found => ?_⟩
    · change renamed.get? (fileName other) = _
      rw [get?_eq, if_neg (Ne.symm draftName_ne_fileName), h.design, Dict.get?_insert]
      by_cases same : other = name
      · simp [same]
      · rw [if_neg same, if_neg fun eq => same (fileName_injective eq)]
    · change renamed.contains file = true at found
      rw [Dict.contains, get?_eq] at found
      split at found
      · next same => exact ⟨name, valid, same.symm⟩
      · split at found
        · cases found
        · exact h.only file found
  · rw [if_neg valid, if_neg valid]
    exact ⟨rfl, h⟩

/-! ## Loading -/

theorem load_eq (h : filed.Mirrors kept) (fits : Fits name) :
    filed.load name =
      .ok (if isValidName name then kept.load name else (Status.badRequest, "")) := by
  rw [load]
  by_cases valid : isValidName name = true
  · rw [if_pos valid, if_pos valid, nameFault?_fileName fits, h.design, MemoryStore.load]
    cases kept.designs.get? name with
    | none => rfl
    | some data => simp only [Option.map_some, read, decodeUtf8?_toUTF8]
  · rw [if_neg valid, if_neg valid]

theorem load_of_invalid (h : filed.Mirrors kept) (invalid : isValidName name = false) :
    kept.load name = (Status.notFound, "") := by
  rw [MemoryStore.load]
  cases found : kept.designs.get? name with
  | none => rfl
  | some data =>
      have valid : isValidName name = true :=
        h.isValidName_of_contains (by rw [Dict.contains, found]; rfl)
      simp [invalid] at valid

/-! ## Listing -/

theorem mem_designs_iff (h : filed.Mirrors kept) :
    name ∈ filed.entries.keys.filterMap designOf? ↔ name ∈ kept.designs.keys := by
  rw [List.mem_filterMap, Dict.mem_keys_iff]
  constructor
  · rintro ⟨file, listed, found⟩
    obtain ⟨rfl, -⟩ := designOf?_eq_some_iff.1 found
    rw [Dict.mem_keys_iff, h.design, Option.isSome_map] at listed
    exact listed
  · intro found
    refine ⟨fileName name, ?_, designOf?_eq_some_iff.2 ⟨rfl, ?_⟩⟩
    · rwa [Dict.mem_keys_iff, h.design, Option.isSome_map]
    · exact head?_of_isValidName (h.isValidName_of_contains found)

theorem list_eq (h : filed.Mirrors kept) : filed.list = kept.list := by
  have nodup : (filed.entries.keys.filterMap designOf?).Nodup := by
    refine List.Nodup.filterMap ?_ (Dict.nodup_keys _)
    intro first second name found also
    rw [← (designOf?_eq_some_iff.1 found).1, ← (designOf?_eq_some_iff.1 also).1]
  have perm : (filed.entries.keys.filterMap designOf?).Perm kept.designs.keys :=
    (List.perm_ext_iff_of_nodup nodup (Dict.nodup_keys _)).2 fun name => h.mem_designs_iff
  have sorted : filed.list.Pairwise (· ≤ ·) := by
    have ordered : filed.list.Pairwise fun a b => decide (a ≤ b) = true :=
      List.pairwise_mergeSort (fun a b c => by simpa using String.le_trans)
        (fun a b => by simpa using String.le_total a b) _
    simpa only [decide_eq_true_eq] using ordered
  have increasing : kept.list.Pairwise (· ≤ ·) := by
    rw [MemoryStore.list, Dict.keys, List.pairwise_map]
    exact kept.designs.sorted.imp Std.le_of_lt
  exact List.Perm.eq_of_pairwise (fun _ _ _ _ => String.le_antisymm) sorted increasing
    ((List.mergeSort_perm _ _).trans perm)

end Mirrors

end DirectoryStore

namespace StoreCall

open DirectoryStore (Mirrors)

variable {kept : MemoryStore} {filed : DirectoryStore}

/-! ## Call by call -/

/-- A call is answered alike, and leaves the directory as it leaves memory. -/
theorem perform_spec (h : filed.Mirrors kept) {call : StoreCall} (fits : call.Fits) :
    Accord (call, (call.perform kept).1) (call, (call.perform filed).1) ∧
      (call.perform filed).2.Mirrors (call.perform kept).2 := by
  cases call with
  | save name data =>
      obtain ⟨status, mirrors⟩ := h.save_eq fits data
      refine ⟨⟨rfl, ?_⟩, mirrors⟩
      simp [asksInvalid, perform, DesignStore.save, status, liftFileFault]
  | load name =>
      have answer := h.load_eq fits
      refine ⟨⟨rfl, ?_⟩, h⟩
      cases valid : isValidName name with
      | true => simp [asksInvalid, perform, DesignStore.load, answer, valid, liftFileFault]
      | false =>
          have missing := h.load_of_invalid valid
          simp [asksInvalid, perform, DesignStore.load, answer, missing, valid, liftFileFault]
  | list =>
      refine ⟨⟨rfl, ?_⟩, h⟩
      simp [asksInvalid, perform, DesignStore.list, h.list_eq]

theorem transcripts_accord_of_mirrors (h : filed.Mirrors kept) {calls : List StoreCall}
    (fits : ∀ call ∈ calls, call.Fits) :
    List.Forall₂ Accord (transcript kept calls) (transcript filed calls) := by
  induction calls generalizing kept filed with
  | nil => exact .nil
  | cons call calls ih =>
      obtain ⟨first, later⟩ := List.forall_mem_cons.1 fits
      obtain ⟨accord, mirrors⟩ := perform_spec h first
      exact .cons accord (ih mirrors later)

/-- **A store in a directory that has not been made yet answers as an empty store in memory
does.** -/
theorem transcripts_accord (calls : List StoreCall) (fits : ∀ call ∈ calls, call.Fits) :
    List.Forall₂ Accord (transcript MemoryStore.empty calls)
      (transcript (⟨none⟩ : DirectoryStore) calls) :=
  transcripts_accord_of_mirrors DirectoryStore.mirrors_empty fits

/-! ## Names that look like files -/

instance (call : StoreCall) : Decidable call.Fits :=
  match call with
  | save name _ | load name => inferInstanceAs (Decidable (_ ∧ utf8Length name ≤ 238))
  | list => isTrue trivial

/-- Names that end like a file, look like a hidden one, are blank or start with a dot. -/
def awkwardCalls : List StoreCall :=
  [.list, .load "hub", .save "hub" "1", .save "hub.design.json" "2",
    .save "hub.design.json.tmp" "3", .save ".hub" "4", .save "  " "5", .save "hub" "6",
    .load "hub", .load ".hub", .load "hub.design.json", .list]

/-- What memory answers. -/
def awkwardAnswers : List StoreAnswer :=
  [.listed (.ok []), .loaded (.ok (404, "")), .saved (.ok 201), .saved (.ok 201), .saved (.ok 201),
    .saved (.ok 400), .saved (.ok 400), .saved (.ok 200), .loaded (.ok (200, "6")),
    .loaded (.ok (404, "")), .loaded (.ok (200, "2")),
    .listed (.ok ["hub", "hub.design.json", "hub.design.json.tmp"])]

theorem transcripts_accord_awkward :
    (∀ call ∈ awkwardCalls, call.Fits) ∧
      (transcript MemoryStore.empty awkwardCalls).map Prod.snd = awkwardAnswers ∧
      List.Forall₂ Accord (transcript MemoryStore.empty awkwardCalls)
        (transcript (⟨none⟩ : DirectoryStore) awkwardCalls) := by
  have fits : ∀ call ∈ awkwardCalls, call.Fits := by decide +kernel
  exact ⟨fits, by decide +kernel, transcripts_accord awkwardCalls fits⟩

end StoreCall

end CloudCanvas
