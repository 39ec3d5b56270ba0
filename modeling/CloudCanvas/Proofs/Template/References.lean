import CloudCanvas.Proofs.Template.Expression
import Mathlib.Logic.Function.Basic

/-!
# References can be read back

A name may hold quotes, commas and brackets, so that what is written for it looks like the
end of an argument or of the whole expression.  As each of its quotes is doubled, the reader
of calls is not deceived: it finds the type and the names that a reference was made from, and
so different types, names or parameters have different references.

The main statement is `readCall?_reference_iff`.
-/

namespace CloudCanvas

variable {type type' : String} {names names' : List String}

theorem parameterReference_injective : Function.Injective parameterReference := by
  intro name name' same
  have read : readParameter? (parameterReference name) = some name' :=
    readParameter?_eq_some_iff.2 same
  rw [readParameter?_eq_some_iff.2 rfl] at read
  exact Option.some.inj read

/-! ## Resources -/

/-- What stands behind the type in a reference. -/
private def behindType (names : List String) : List Char :=
  ", ".toList ++ (", ".intercalate (names.map quoted)).toList ++ ")]".toList

private theorem toList_resourceReference (type : String) (names : List String) :
    (resourceReference type names).toList =
      "[resourceId('".toList ++ (doubleQuotes type.toList ++ '\'' :: behindType names) := by
  simp [resourceReference, quoted, behindType, String.toList_append]

/-- The type is read from a reference, whatever names follow it, if any. -/
private theorem eq_of_resourceReference_eq
    (same : resourceReference type names = resourceReference type' names') :
    type = type' ∧ behindType names = behindType names' := by
  have read : ∀ type names, closeQuote? (doubleQuotes type ++ '\'' :: behindType names) =
      some (type, behindType names) := fun type names =>
    closeQuote?_doubleQuotes type (by simp [behindType])
  have texts := congrArg String.toList same
  rw [toList_resourceReference, toList_resourceReference] at texts
  have reads := congrArg closeQuote? (List.append_cancel_left texts)
  rw [read, read] at reads
  obtain ⟨types, behind⟩ := Prod.mk.inj (Option.some.inj reads)
  exact ⟨String.toList_inj.1 types, behind⟩

/-- Whether names follow the type is seen from what stands behind it. -/
private theorem behindType_nil_ne (given : names ≠ []) : behindType [] ≠ behindType names := by
  cases names with
  | nil => exact absurd rfl given
  | cons first others =>
      cases others <;> simp [behindType, quoted, String.toList_intercalate]

theorem resourceReference_injective2 : Function.Injective2 resourceReference := by
  intro type type' names names' same
  obtain ⟨rfl, behind⟩ := eq_of_resourceReference_eq same
  refine ⟨rfl, ?_⟩
  by_cases none : names = [] <;> by_cases none' : names' = []
  · rw [none, none']
  · exact absurd (none ▸ behind) (behindType_nil_ne none')
  · exact absurd (none' ▸ behind.symm) (behindType_nil_ne none)
  · have read := readReference?_resourceReference type none'
    rw [← same, readReference?_resourceReference type none] at read
    simpa using read

/-- **References can be read back**: the reader of calls finds in a reference to a resource
its type and then its names, and in a reference to a parameter its name, and finds these in
no other string.  So a reference determines what it was made from. -/
theorem readCall?_reference_iff :
    (∀ type names, names ≠ [] → ∀ s, readCall? "resourceId" s = some (type :: names) ↔
      s = resourceReference type names) ∧
    Function.Injective2 resourceReference ∧
    (∀ name s, readCall? "parameters" s = some [name] ↔ s = parameterReference name) ∧
    Function.Injective parameterReference := by
  refine ⟨?_, resourceReference_injective2, ?_, parameterReference_injective⟩
  · intro type names given s
    rw [readCall?_eq_some_iff, resourceReference_eq type given]
    simp
  · intro name s
    rw [readCall?_eq_some_iff, parameterReference_eq]
    simp

/-- Names that look like the end of an argument, of the call and of a quoted text, and one that
is empty. -/
theorem readCall?_reference_deceptive :
    let names := ["o'brien", "', '", "')]", "", "'"]
    let s := "[resourceId('Microsoft.Web/sites', 'o''brien', ''', ''', ''')]', '', '''')]"
    names ≠ [] ∧ s = resourceReference "Microsoft.Web/sites" names ∧
      readCall? "resourceId" s = some ("Microsoft.Web/sites" :: names) := by
  intro names s
  have given : names ≠ [] := by decide
  have written : s = resourceReference "Microsoft.Web/sites" names := by decide
  exact ⟨given, written, (readCall?_reference_iff.1 _ names given s).2 written⟩

end CloudCanvas
