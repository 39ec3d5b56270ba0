import CloudCanvas.Proofs.Dict
import CloudCanvas.Template

/-!
# The names of parameters, and entering them

The last underscore of the name of an element's parameter ends the scope of the element, so
elements with different scopes have parameters with different names.  Parameters that are
entered one after another are all there in the end, and each of them either is new or
replaces one with its name.

## Main definitions

* `IsParameterOf`: the names that a parameter of an element can have.
* `Template.timesEntered`: how often a name has been entered.

The main statements are `parameterName_eq_iff` and `Template.timesEntered_foldl`.
-/

namespace CloudCanvas

/-! ## Names -/

/-- The names of parameters of the element with an id: its scope, an underscore and a suffix
that has none. -/
def IsParameterOf (id name : String) : Prop :=
  ∃ suffix, '_' ∉ suffix.toList ∧ name = parameterName id suffix

/-- What stands behind the last underscore. -/
private theorem takeWhile_reverse_append {scope suffix : List Char} (h : '_' ∉ suffix) :
    (scope ++ '_' :: suffix).reverse.takeWhile (· != '_') = suffix.reverse := by
  have other : ∀ c ∈ suffix.reverse, (c != '_') = true := by
    intro c mem
    have mem := List.mem_reverse.1 mem
    have ne : c ≠ '_' := fun eq => h (eq ▸ mem)
    simpa using ne
  rw [List.reverse_append, List.reverse_cons, List.append_assoc,
    List.takeWhile_append_of_pos other]
  simp

/-- **The last underscore ends the scope.** -/
theorem parameterName_eq_iff {id other suffix suffix' : String} (h : '_' ∉ suffix.toList)
    (h' : '_' ∉ suffix'.toList) : parameterName id suffix = parameterName other suffix' ↔
      parameterScope id = parameterScope other ∧ suffix = suffix' := by
  constructor
  · intro same
    have text : (parameterScope id).toList ++ '_' :: suffix.toList =
        (parameterScope other).toList ++ '_' :: suffix'.toList := by
      simpa [parameterName, String.toList_append] using congrArg String.toList same
    have last : suffix.toList.reverse = suffix'.toList.reverse := by
      rw [← takeWhile_reverse_append h, text, takeWhile_reverse_append h']
    obtain rfl := String.toList_injective (List.reverse_injective last)
    exact ⟨String.toList_injective (List.append_cancel_right text), rfl⟩
  · intro ⟨scope, eq⟩
    rw [parameterName, parameterName, scope, eq]

/-- A name without an underscore is no element's. -/
theorem not_isParameterOf {id name : String} (h : '_' ∉ name.toList) :
    ¬ IsParameterOf id name := by
  intro ⟨suffix, _, eq⟩
  rw [eq, parameterName] at h
  simp [String.toList_append] at h

/-! ## Entering -/

namespace Template

variable {parameters : Dict ParameterDefinition} {batch : List (String × ParameterDefinition)}
  {name : String}

/-- The names that were replaced before stay in front. -/
theorem foldl_enterParameter (replaced : List String) :
    batch.foldl enterParameter (parameters, replaced) =
      ((batch.foldl enterParameter (parameters, [])).1,
        replaced ++ (batch.foldl enterParameter (parameters, [])).2) := by
  induction batch generalizing parameters replaced with
  | nil => simp
  | cons entry batch ih =>
      rw [List.foldl_cons, List.foldl_cons, enterParameter, enterParameter, ih, eq_comm, ih]
      by_cases there : parameters.contains entry.1 = true <;> simp [there]

theorem fst_foldl_enterParameter (replaced : List String) :
    (batch.foldl enterParameter (parameters, replaced)).1 =
      batch.foldl (fun d entry => d.insert entry.1 entry.2) parameters := by
  induction batch generalizing parameters replaced with
  | nil => rfl
  | cons entry batch ih => exact ih _

theorem get?_foldl_enterParameter :
    (batch.foldl enterParameter (∅, [])).1.get? name = batch.reverse.lookup name := by
  rw [fst_foldl_enterParameter, Dict.get?_foldl_insert, Dict.get?_empty, Option.or_none]

/-- Exactly the parameters that were entered are there. -/
theorem mem_keys_foldl_enterParameter :
    name ∈ (batch.foldl enterParameter (∅, [])).1.keys ↔ name ∈ batch.map Prod.fst := by
  rw [Dict.mem_keys_iff, get?_foldl_enterParameter, isSome_lookup_reverse_iff]

/-- How often a name has been entered, going by what is there and what was replaced. -/
def timesEntered (name : String) (state : Dict ParameterDefinition × List String) : ℕ :=
  state.2.count name + if state.1.contains name then 1 else 0

theorem timesEntered_enterParameter (state : Dict ParameterDefinition × List String)
    (entry : String × ParameterDefinition) : timesEntered name (enterParameter state entry) =
      timesEntered name state + if entry.1 = name then 1 else 0 := by
  simp only [timesEntered, enterParameter, Dict.contains_insert]
  by_cases same : entry.1 = name
  · subst same
    by_cases there : state.1.contains entry.1 = true <;> simp [there]
  · have ne : name ≠ entry.1 := fun eq => same eq.symm
    by_cases there : state.1.contains entry.1 = true <;> simp [there, same, ne]

/-- **Each parameter that is entered is new or replaces one with its name.** -/
theorem timesEntered_foldl (state : Dict ParameterDefinition × List String) :
    timesEntered name (batch.foldl enterParameter state) =
      timesEntered name state + (batch.map Prod.fst).count name := by
  induction batch generalizing state with
  | nil => simp
  | cons entry batch ih =>
      rw [List.foldl_cons, ih, timesEntered_enterParameter, List.map_cons, List.count_cons]
      simp only [beq_iff_eq]
      omega

end Template

end CloudCanvas
