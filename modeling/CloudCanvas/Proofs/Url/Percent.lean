import CloudCanvas.Url.Percent
import Mathlib.Data.List.Basic

/-!
# Encoded characters can be read back

What is encoded decodes to the bytes of the text, whichever characters are encoded, as long
as the percent sign is one of them.  So two texts that are encoded alike are one text.

The main statements are `Percent.decode_encode` and `Percent.encode_injective`.
-/

namespace CloudCanvas

namespace Percent

variable {set : Char → Bool}

/-! ## Bytes -/

/-- A digit stands for its number. -/
theorem hexValue?_digit (n : ℕ) : hexValue? (digit n) = some (n % 16) := by
  have small : ∀ m < 16, hexValue? (digit m) = some m := by decide
  have same : digit n = digit (n % 16) := by simp [digit]
  rw [same]
  exact small _ (Nat.mod_lt n (by decide))

theorem decode_encodeByte (b : UInt8) (rest : List Char) :
    decode (encodeByte b ++ rest) = b :: decode rest := by
  have bound := b.toNat_lt
  have high : b.toNat / 16 % 16 = b.toNat / 16 := Nat.mod_eq_of_lt (by omega)
  simp only [encodeByte, List.cons_append, List.nil_append, decode, hexValue?_digit, high]
  rw [Nat.div_add_mod', UInt8.ofNat_toNat]

/-! ## Characters -/

theorem decode_encodeChar (c : Char) (rest : List Char) :
    decode (encodeChar c ++ rest) = String.utf8EncodeChar c ++ decode rest := by
  rw [encodeChar]
  induction String.utf8EncodeChar c with
  | nil => rfl
  | cons b bytes ih =>
      rw [List.flatMap_cons, List.append_assoc, decode_encodeByte, ih]
      rfl

/-- A character that is no percent sign stands for itself. -/
theorem decode_cons {c : Char} (h : c ≠ '%') (rest : List Char) :
    decode (c :: rest) = String.utf8EncodeChar c ++ decode rest := by
  rw [decode]
  intro a b tail percent
  exact absurd percent h

/-! ## Texts -/

/-- **What is encoded decodes to the bytes of the text.** -/
theorem decode_encode (percent : set '%' = true) (cs : List Char) :
    decode (encode set cs) = cs.flatMap String.utf8EncodeChar := by
  induction cs with
  | nil => rfl
  | cons c cs ih =>
      rw [encode, List.flatMap_cons, List.flatMap_cons, ← encode]
      by_cases encoded : set c = true
      · rw [if_pos encoded, decode_encodeChar, ih]
      · have plain : c ≠ '%' := by
          intro eq
          rw [eq] at encoded
          exact encoded percent
        rw [if_neg encoded, List.singleton_append, decode_cons plain, ih]

/-- Texts with the same bytes are one text. -/
theorem flatMap_utf8EncodeChar_injective :
    Function.Injective (List.flatMap String.utf8EncodeChar) := by
  intro cs ds same
  have bytes : cs.utf8Encode = ds.utf8Encode := congrArg List.toByteArray same
  have texts : String.ofList cs = String.ofList ds := by
    rw [← String.toByteArray_inj, String.toByteArray_ofList, String.toByteArray_ofList, bytes]
  exact String.ofList_injective texts

/-- **Different texts are encoded differently.** -/
theorem encode_injective (percent : set '%' = true) : Function.Injective (encode set) := by
  intro cs ds same
  have decoded := congrArg decode same
  rw [decode_encode percent, decode_encode percent] at decoded
  exact flatMap_utf8EncodeChar_injective decoded

/-! ## Slashes -/

theorem slash_notMem_encodeByte (b : UInt8) : '/' ∉ encodeByte b := by
  have digits : ∀ n, digit n ≠ '/' := by
    intro n eq
    have value := hexValue?_digit n
    rw [eq] at value
    exact absurd value (by simp [hexValue?])
  intro mem
  simp only [encodeByte, List.mem_cons, List.not_mem_nil, or_false] at mem
  rcases mem with percent | high | low
  · exact absurd percent (by decide)
  · exact digits _ high.symm
  · exact digits _ low.symm

/-- A slash that has to be encoded does not stand in what is encoded. -/
theorem slash_notMem_encode (slash : set '/' = true) (cs : List Char) :
    '/' ∉ encode set cs := by
  intro mem
  obtain ⟨c, -, mem⟩ := List.mem_flatMap.1 mem
  split at mem
  · obtain ⟨b, -, mem⟩ := List.mem_flatMap.1 mem
    exact slash_notMem_encodeByte b mem
  · rename_i plain
    rw [List.mem_singleton] at mem
    rw [← mem] at plain
    exact plain slash

end Percent

end CloudCanvas
