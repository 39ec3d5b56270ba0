import CloudCanvas.Network.Prefix
import CloudCanvas.Proofs.Text.Blank
import CloudCanvas.Template.Expression
import Mathlib.Algebra.Group.Nat.Defs
import Mathlib.Data.List.TakeWhile

/-!
# Address spaces

A text in brackets names no address space, and neither does what is written for it.  So
an address space can be read from a property or from the text that a template has in
its place.

The main statements are `AddressSpace.parse?_literal` and `isSome_carveSubnet_iff`.
-/

namespace CloudCanvas

/-- An address starts with a digit. -/
theorem Ipv4.parse?_eq_none {c : Char} (digit : c.isDigit = false) (dot : c ≠ '.')
    (cs : List Char) : parse? (c :: cs) = none := by
  have part : ∀ part, octet? (c :: part) = none := fun part => by
    simp [octet?, decimal?, digit]
  rw [parse?, List.splitOn_cons_eq_if_modifyHead, if_neg (by simpa using dot)]
  rcases cs.splitOn '.' with - | ⟨first, rest⟩
  · rfl
  · rw [List.modifyHead_cons]
    split
    · rename_i eq
      obtain ⟨rfl, -⟩ := List.cons.inj eq
      rw [part]
      rfl
    · rfl

namespace AddressSpace

/-- A text in brackets names no address space. -/
theorem parse?_eq_none {s : String} (h : s.toList.head? = some '[') : parse? s = none := by
  have head := head?_trimBlank (by decide) h
  obtain ⟨cs, text⟩ : ∃ cs, (trimBlank s).toList = '[' :: cs := List.head?_eq_some_iff.1 head
  have base : Ipv4.parse? (('[' :: cs).takeWhile (· != '/')) = none := by
    rw [List.takeWhile_cons_of_pos (by decide)]
    exact Ipv4.parse?_eq_none (by decide) (by decide) _
  rw [parse?, text]
  split
  · rw [base]
    rfl
  · rfl

/-- **Writing a text so that it is not evaluated does not change which address space it
names.** -/
theorem parse?_literal (s : String) : parse? (literal s) = parse? s := by
  rw [literal]
  split
  · rename_i bracketed
    have head : s.toList.head? = some '[' := by
      simpa using (Bool.and_eq_true_iff.1 bracketed).1
    rw [parse?_eq_none head, parse?_eq_none (by simp [String.toList_append])]
  · rfl

/-- Whether a text names a space with a range of 256 addresses of some number. -/
def HasRange (s : String) (ordinal : ℕ) : Prop :=
  ∃ space, parse? s = some space ∧ space.length ≤ 24 ∧ ordinal < 2 ^ (24 - space.length)

end AddressSpace

/-- A range is carved exactly where there is one. -/
theorem isSome_carveSubnet_iff {s : String} {ordinal : ℕ} :
    (carveSubnet s ordinal).isSome ↔ AddressSpace.HasRange s ordinal := by
  rw [carveSubnet, AddressSpace.HasRange]
  cases AddressSpace.parse? s with
  | none => simp
  | some space =>
      simp only [Option.bind_eq_bind, Option.bind_some, Option.some_inj, exists_eq_left']
      split <;>
      · rename_i room
        simpa using room

end CloudCanvas
