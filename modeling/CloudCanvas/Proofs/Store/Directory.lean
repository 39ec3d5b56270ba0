import CloudCanvas.Proofs.Dict
import CloudCanvas.Store.Directory

/-!
# The files of a store in a directory

A design's file has the design's name with an ending, so the name can be told from the file.  The
hidden file that a design is written to first is no design's file, and is gone when the design has
been saved.

## Main definitions

* `DirectoryStore.Fits`: names that are short enough for their files.

The main statements are `DirectoryStore.designOf?_eq_some_iff` and `DirectoryStore.replace_spec`.
-/

namespace CloudCanvas

/-- The bytes of a text are read as that text. -/
theorem decodeUtf8?_toUTF8 (s : String) : decodeUtf8? s.toUTF8 = some s := by
  rw [decodeUtf8?, String.fromUTF8?, String.toUTF8_eq_toByteArray, dif_pos s.isValidUTF8]
  rfl

theorem head?_of_isValidName {name : String} (valid : isValidName name = true) :
    name.toList.head? ≠ some '.' := by
  intro dot
  simp [isValidName, dot] at valid

namespace DirectoryStore

variable {name other file : String}

/-! ## Names of files -/

theorem toList_fileName (name : String) : (fileName name).toList = name.toList ++ ending.toList :=
  String.toList_append

theorem fileName_injective : Function.Injective fileName := by
  intro first second same
  have chars := congrArg String.toList same
  rw [toList_fileName, toList_fileName] at chars
  exact String.toList_inj.1 (List.append_cancel_right chars)

/-- A file is a design's if it has the design's name with the ending, and is not hidden. -/
theorem designOf?_eq_some_iff :
    designOf? file = some name ↔ fileName name = file ∧ name.toList.head? ≠ some '.' := by
  rw [designOf?, ← String.toList_inj, toList_fileName]
  constructor
  · intro found
    split at found
    · next suffix =>
        obtain ⟨stem, split⟩ := List.isSuffixOf_iff_suffix.1 suffix
        rw [← split] at found ⊢
        simp only [List.length_append, Nat.add_sub_cancel, List.take_left'] at found
        split at found
        · cases found
        · next visible =>
            obtain rfl := Option.some.inj found
            simpa using visible
    · cases found
  · rintro ⟨whole, visible⟩
    rw [← whole, if_pos (List.isSuffixOf_iff_suffix.2 ⟨_, rfl⟩)]
    simp [visible]

/-- The two files of a design do not end alike, so no hidden file is a design's. -/
theorem draftName_ne_fileName : draftName other ≠ fileName name := by
  intro same
  have last := congrArg (fun file => file.toList.getLast?) same
  have draft : ".tmp".toList.getLast? = some 'p' := by decide
  have design : ending.toList.getLast? = some 'n' := by decide
  simp only [draftName, fileName, String.toList_append, List.getLast?_append, draft, design] at last
  simp at last

theorem designOf?_draftName : designOf? (draftName name) = none := by
  refine Option.eq_none_iff_forall_ne_some.2 fun other found => ?_
  exact draftName_ne_fileName (designOf?_eq_some_iff.1 found).1.symm

/-- A name that is short enough for a design's file and for the hidden one. -/
def Fits (name : String) : Prop :=
  '\x00' ∉ name.toList ∧ utf8Length name ≤ 238

theorem nameFault?_eq_none_iff :
    nameFault? file = none ↔ '\x00' ∉ file.toList ∧ utf8Length file ≤ 255 := by
  rw [nameFault?]
  by_cases nul : '\x00' ∈ file.toList
  · simp [nul]
  · by_cases long : 255 < utf8Length file
    · simp [nul, long]
    · simp [nul, long, Nat.not_lt.1 long]

theorem nameFault?_fileName_eq_none_iff : nameFault? (fileName name) = none ↔
    '\x00' ∉ name.toList ∧ utf8Length name ≤ 243 := by
  have clean : '\x00' ∉ ending.toList := by decide
  have suffix : ending.utf8ByteSize = 12 := by decide
  rw [nameFault?_eq_none_iff, toList_fileName, List.mem_append, or_iff_left clean, utf8Length,
    utf8Length, fileName, String.utf8ByteSize_append, suffix]
  exact and_congr_right fun _ => Nat.add_le_add_iff_right (k := 243) (n := 12)

theorem nameFault?_draftName_eq_none_iff : nameFault? (draftName name) = none ↔ Fits name := by
  have clean : '\x00' ∉ ".".toList ∧ '\x00' ∉ ending.toList ∧ '\x00' ∉ ".tmp".toList := by
    decide
  have sizes : ".".utf8ByteSize = 1 ∧ ending.utf8ByteSize = 12 ∧ ".tmp".utf8ByteSize = 4 := by
    decide
  rw [nameFault?_eq_none_iff, Fits, utf8Length, utf8Length]
  simp only [draftName, String.toList_append, String.utf8ByteSize_append, List.mem_append, clean,
    sizes, or_false, false_or]
  exact and_congr_right fun _ => by omega

theorem nameFault?_fileName (fits : Fits name) : nameFault? (fileName name) = none :=
  nameFault?_fileName_eq_none_iff.2 ⟨fits.1, Nat.le_trans fits.2 (by decide)⟩

/-! ## Replacing a design -/

variable {entries : Dict Entry} {data : String}

theorem write_eq_ok (possible : nameFault? file = none)
    (free : entries.get? file ≠ some .folder) :
    write entries file data = .ok (entries.insert file (.file data.toUTF8)) := by
  rw [write, possible]
  cases found : entries.get? file with
  | none => rfl
  | some entry =>
      cases entry with
      | file bytes => rfl
      | folder => exact absurd found free

theorem rename_eq_ok {source target : String} {entry : Entry}
    (found : entries.get? source = some entry) (free : entries.get? target ≠ some .folder) :
    rename entries source target = .ok ((entries.erase source).insert target entry) := by
  rw [rename, found]
  cases there : entries.get? target with
  | none => rfl
  | some old =>
      cases old with
      | file bytes => rfl
      | folder => exact absurd there free

/-- A design that is saved is in its file, the hidden file is gone, and no other file has
changed. -/
theorem replace_spec (fits : Fits name) (free : entries.get? (draftName name) ≠ some .folder)
    (unobstructed : entries.get? (fileName name) ≠ some .folder) (data : String) :
    ∃ renamed, replace entries name data =
        (.ok (if entries.contains (fileName name) then Status.ok else Status.created), renamed) ∧
      ∀ file, renamed.get? file =
        if file = fileName name then some (.file data.toUTF8)
        else if file = draftName name then none else entries.get? file := by
  have ne : fileName name ≠ draftName name := Ne.symm draftName_ne_fileName
  let drafted := entries.insert (draftName name) (.file data.toUTF8)
  let renamed := (drafted.erase (draftName name)).insert (fileName name) (.file data.toUTF8)
  have written : write entries (draftName name) data = .ok drafted :=
    write_eq_ok (nameFault?_draftName_eq_none_iff.2 fits) free
  have moved : rename drafted (draftName name) (fileName name) = .ok renamed :=
    rename_eq_ok (by simp [drafted]) (by simpa [drafted, ne] using unobstructed)
  refine ⟨renamed, ?_, fun file => ?_⟩
  · rw [replace, nameFault?_fileName fits]
    simp only [written, moved]
  · simp only [renamed, drafted, Dict.get?_insert, Dict.get?_erase]
    by_cases draft : file = draftName name
    · simp [draft]
    · simp [draft]

end DirectoryStore

end CloudCanvas
