import CloudCanvas.Proofs.Export.Rules
import CloudCanvas.Proofs.Fold
import CloudCanvas.Proofs.Json.Value

/-!
# Properties that must be texts

Reading a property that must be a text succeeds exactly if it is missing or a text, and
what is read is what is written for the text.

The main statements are `Element.exists_textProperty_iff` and
`Element.exists_textProperty_mem_iff`.
-/

namespace CloudCanvas

theorem exists_bind_eq_ok_iff {ε α β : Type} {x : Except ε α} {f : α → Except ε β} :
    (∃ b, x >>= f = .ok b) ↔ ∃ a, x = .ok a ∧ ∃ b, f a = .ok b := by
  simp only [bind_eq_ok_iff]
  exact ⟨fun ⟨b, a, h, k⟩ => ⟨a, h, b, k⟩, fun ⟨a, h, b, k⟩ => ⟨b, a, h, k⟩⟩

@[simp] theorem Value.string_inj {text other : String} :
    Value.string text = .string other ↔ text = other :=
  ⟨fun h => Json.string.inj (congrArg Value.json h), congrArg _⟩

theorem Value.string?_eq_some_iff {value : Value} {text : String} :
    value.string? = some text ↔ value = .string text := by
  constructor
  · intro h
    rw [string?] at h
    cases json : value.json <;> rw [json] at h <;> cases h
    exact Value.ext json
  · rintro rfl
    rfl

namespace Element

variable {element : Element} {name default text : String}

/-- What is read for a property that must be a text. -/
theorem textProperty_eq_ok_iff : element.textProperty name default = .ok text ↔
    (element.properties.get? name = none ∧ text = literal default) ∨
      ∃ given, element.properties.get? name = some (.string given) ∧ text = literal given := by
  rw [textProperty]
  cases element.properties.get? name with
  | none => simp [eq_comm]
  | some value =>
      cases h : value.string? with
      | none =>
          have other : ∀ given, value ≠ .string given := by
            rintro given rfl
            cases h
          simp [h, other]
      | some given =>
          obtain rfl := Value.string?_eq_some_iff.1 h
          simp [h, eq_comm]

theorem exists_textProperty_iff (element : Element) (name default : String) :
    (∃ text, element.textProperty name default = .ok text) ↔ element.TextOrAbsent name := by
  simp only [textProperty_eq_ok_iff, TextOrAbsent]
  cases element.properties.get? name with
  | none => simp
  | some value => simp

/-- Reading a property and checking that it is one of some texts. -/
theorem exists_textProperty_mem_iff {texts : List String}
    (plain : ∀ text, literal text ∈ texts ↔ text ∈ texts) (mem : default ∈ texts) :
    (∃ text, element.textProperty name default = .ok text ∧ text ∈ texts) ↔
      element.OneOfOrAbsent name texts := by
  simp only [textProperty_eq_ok_iff, OneOfOrAbsent]
  cases element.properties.get? name with
  | none => simp [plain, mem]
  | some value =>
      constructor
      · rintro ⟨text, ⟨none, -⟩ | ⟨given, eq, rfl⟩, listed⟩ value' h
        · cases none
        · obtain rfl := Option.some.inj h
          exact ⟨given, (plain given).1 listed, Option.some.inj eq⟩
      · intro h
        obtain ⟨given, listed, rfl⟩ := h value rfl
        exact ⟨literal given, .inr ⟨given, rfl, rfl⟩, (plain given).2 listed⟩

end Element

/-- Texts without brackets are the same as they are written. -/
theorem literal_mem_iff {texts : List String}
    (plain : ∀ text ∈ texts, text.toList.head? ≠ some '[') (text : String) :
    literal text ∈ texts ↔ text ∈ texts := by
  rw [literal]
  split
  · rename_i bracketed
    have head : text.toList.head? = some '[' := by
      simpa using (Bool.and_eq_true_iff.1 bracketed).1
    refine iff_of_false (fun mem => plain _ mem ?_) (fun mem => plain _ mem head)
    simp [String.toList_append]
  · rfl

end CloudCanvas
