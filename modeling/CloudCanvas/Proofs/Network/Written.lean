import CloudCanvas.Proofs.Json.Numeral
import CloudCanvas.Proofs.Network.Range

/-!
# How address spaces are written

An address has one written form: four numbers below 256 without zeros in front.  A length may
have a plus sign and then zeros in front.  The reader of address spaces takes exactly the texts
in which such an address and such a length stand around a slash, blanks around them not counting.

The main statements are `Ipv4.parse?_eq_some_iff`, `AddressSpace.length?_eq_some_iff` and
`AddressSpace.parse?_eq_some_iff`.
-/

namespace CloudCanvas

/-! ## Decimal numbers -/

theorem decimal?_eq_some_iff_value {cs : List Char} {n : ℕ} :
    decimal? cs = some n ↔ DigitRow cs ∧ digitsValue cs = n := by
  have value : digitsValue cs = cs.foldl (fun n c => n * 10 + (c.toNat - '0'.toNat)) 0 := rfl
  rw [decimal?, value, DigitRow]
  cases cs <;> simp [and_assoc]

theorem digitsValue_concat (digits : List Char) (c : Char) :
    digitsValue (digits ++ [c]) = 10 * digitsValue digits + digitsValue [c] := by
  simp [digitsValue, Nat.mul_comm]

/-- A digit is the written form of its value. -/
theorem toDigits_digitsValue_singleton {c : Char} (digit : c.isDigit = true) :
    digitsValue [c] < 10 ∧ Nat.toDigits 10 (digitsValue [c]) = [c] := by
  have chars : ∀ n < 58, 48 ≤ n → Nat.digitChar (n - 48) = Char.ofNat n := by decide
  have value : digitsValue [c] = c.toNat - 48 := by simp [digitsValue]
  have bounds : 48 ≤ c.toNat ∧ c.toNat < 58 := by
    simp [Char.isDigit, UInt32.le_iff_toNat_le] at digit
    omega
  have small : digitsValue [c] < 10 := by omega
  refine ⟨small, ?_⟩
  rw [Nat.toDigits_of_lt_base small, value, chars _ bounds.2 bounds.1, Char.ofNat_toNat]

/-- A row of digits is the written form of its value, perhaps with zeros in front. -/
theorem exists_zeros_toDigits {digits : List Char} (row : DigitRow digits) : ∃ zeros,
    digits = List.replicate zeros '0' ++ Nat.toDigits 10 (digitsValue digits) := by
  induction digits using List.reverseRecOn with
  | nil => exact absurd rfl row.1
  | append_singleton front c ih =>
      obtain ⟨small, last⟩ := toDigits_digitsValue_singleton (row.2 c (by simp))
      by_cases empty : front = []
      · exact ⟨0, by simp [empty, last]⟩
      obtain ⟨zeros, eq⟩ := ih ⟨empty, fun d mem => row.2 d (List.mem_append_left _ mem)⟩
      rw [digitsValue_concat]
      rcases Nat.eq_zero_or_pos (digitsValue front) with none | some
      · -- a front of zeros, of which the last is written for the value zero
        refine ⟨zeros + 1, ?_⟩
        rw [none, Nat.toDigits_zero] at eq
        rw [none, Nat.mul_zero, Nat.zero_add, last, List.replicate_succ', ← eq]
      · refine ⟨zeros, ?_⟩
        rw [← Nat.toDigits_append_toDigits (by decide) some small, last, ← List.append_assoc, ← eq]

/-- **A decimal number is its written form with zeros in front.** -/
theorem decimal?_eq_some_iff {cs : List Char} {n : ℕ} :
    decimal? cs = some n ↔ ∃ zeros, cs = List.replicate zeros '0' ++ Nat.toDigits 10 n := by
  rw [decimal?_eq_some_iff_value]
  constructor
  · rintro ⟨row, rfl⟩
    exact exists_zeros_toDigits row
  · rintro ⟨zeros, rfl⟩
    refine ⟨⟨by simp, fun c mem => ?_⟩, by simp [digitsValue_zeros_append]⟩
    rcases List.mem_append.1 mem with zero | digit
    · rw [(List.mem_replicate.1 zero).2]
      rfl
    · exact (digitRow_toDigits n).2 c digit

/-! ## Addresses -/

namespace Ipv4

/-- A part of an address has one written form. -/
theorem octet?_eq_some_iff {cs : List Char} {n : ℕ} :
    octet? cs = some n ↔ n < 256 ∧ cs = Nat.toDigits 10 n := by
  constructor
  · intro read
    refine ⟨octet?_lt read, ?_⟩
    obtain ⟨m, number, valid⟩ := Option.bind_eq_some_iff.1 read
    rw [Option.ite_none_right_eq_some, Option.some_inj] at valid
    obtain ⟨⟨-, -, front⟩, rfl⟩ := valid
    obtain ⟨zeros, rfl⟩ := decimal?_eq_some_iff.1 number
    cases zeros with
    | zero => rfl
    | succ zeros =>
        -- with a zero in front it would have to be the only digit
        simp [List.replicate_succ] at front
  · rintro ⟨small, rfl⟩
    exact octet?_toDigits n small

/-- **An address is read from its written form only.** -/
theorem parse?_eq_some_iff {cs : List Char} {address : ℕ} :
    parse? cs = some address ↔ address < 2 ^ 32 ∧ cs = (text address).toList := by
  constructor
  · intro read
    refine ⟨parse?_lt read, ?_⟩
    rw [parse?] at read
    split at read
    · rename_i a b c d split
      simp only [Option.bind_eq_bind, Option.bind_eq_some_iff, octet?_eq_some_iff,
        Option.some_inj] at read
      obtain ⟨a, ⟨ha, rfl⟩, b, ⟨hb, rfl⟩, c, ⟨hc, rfl⟩, d, ⟨hd, rfl⟩, rfl⟩ := read
      have joined : ['.'].intercalate (cs.splitOn '.') = cs := List.intercalate_splitOn '.'
      rw [← joined, split, toList_text, parts]
      simp only [List.map_cons, List.map_nil]
      congr 6 <;> omega
    · cases read
  · rintro ⟨bits, rfl⟩
    exact parse?_text bits

end Ipv4

/-! ## Spaces -/

namespace AddressSpace

private theorem bind_below_eq_some_iff {x : Option ℕ} {n : ℕ} :
    (x.bind fun m => if m < 0x100000000 then some m else none) = some n ↔
      n < 2 ^ 32 ∧ x = some n := by
  cases x with
  | none => simp
  | some m =>
      simp only [Option.bind_some, Option.ite_none_right_eq_some, Option.some_inj]
      exact and_congr_left fun same => same ▸ Iff.rfl

/-- A plus sign in front of a length does not count. -/
private theorem length?_plus {digits : List Char} {n : ℕ} :
    length? ('+' :: digits) = some n ↔ n < 2 ^ 32 ∧ decimal? digits = some n :=
  bind_below_eq_some_iff

private theorem length?_unsigned {digits : List Char} {n : ℕ} (h : digits.head? ≠ some '+') :
    length? digits = some n ↔ n < 2 ^ 32 ∧ decimal? digits = some n := by
  have same : length? digits =
      (decimal? digits).bind fun m => if m < 0x100000000 then some m else none := by
    rw [length?]
    · rfl
    · rintro rest rfl
      exact h rfl
  rw [same, bind_below_eq_some_iff]

/-- **A length is a number below `2 ^ 32`**, perhaps with a plus sign and zeros in front. -/
theorem length?_eq_some_iff {cs : List Char} {n : ℕ} : length? cs = some n ↔ n < 2 ^ 32 ∧
    ∃ sign zeros, (sign = [] ∨ sign = ['+']) ∧
      cs = sign ++ (List.replicate zeros '0' ++ Nat.toDigits 10 n) := by
  constructor
  · intro read
    by_cases signed : cs.head? = some '+'
    · obtain ⟨digits, rfl⟩ := List.head?_eq_some_iff.1 signed
      obtain ⟨small, number⟩ := length?_plus.1 read
      obtain ⟨zeros, rfl⟩ := decimal?_eq_some_iff.1 number
      exact ⟨small, ['+'], zeros, .inr rfl, rfl⟩
    · obtain ⟨small, number⟩ := (length?_unsigned signed).1 read
      obtain ⟨zeros, rfl⟩ := decimal?_eq_some_iff.1 number
      exact ⟨small, [], zeros, .inl rfl, rfl⟩
  · rintro ⟨small, sign, zeros, rfl | rfl, rfl⟩
    · have number : decimal? (List.replicate zeros '0' ++ Nat.toDigits 10 n) = some n :=
        decimal?_eq_some_iff.2 ⟨zeros, rfl⟩
      refine (length?_unsigned fun signed => ?_).2 ⟨small, number⟩
      -- a plus sign is no digit
      have digit := (decimal?_eq_some_iff_value.1 number).1.2 '+' (List.mem_of_mem_head? signed)
      cases digit
    · exact length?_plus.2 ⟨small, decimal?_eq_some_iff.2 ⟨zeros, rfl⟩⟩

/-- **A space is read from an address and a length around the first slash**, blanks around them
not counting. -/
theorem parse?_eq_some_iff {s : String} {space : AddressSpace} : parse? s = some space ↔
    ∃ address length, (trimBlank s).toList = address ++ '/' :: length ∧ '/' ∉ address ∧
      Ipv4.parse? address = some space.base ∧ length? length = some space.length := by
  rw [parse?]
  constructor
  · intro read
    split at read
    · rename_i length behind
      obtain ⟨base, address, read⟩ := Option.bind_eq_some_iff.1 read
      obtain ⟨bits, number, same⟩ := Option.bind_eq_some_iff.1 read
      cases same
      refine ⟨_, length, ?_, ?_, address, number⟩
      · rw [← behind, List.takeWhile_append_dropWhile]
      · intro slash
        simpa using List.mem_takeWhile_imp slash
    · cases read
  · rintro ⟨address, length, text, noSlash, base, number⟩
    have stays : ∀ c ∈ address, (c != '/') = true := fun c mem =>
      bne_iff_ne.2 fun slash => noSlash (slash ▸ mem)
    simp only [text, List.takeWhile_append_of_pos stays, List.dropWhile_append_of_pos stays]
    simp [base, number]

theorem length_lt {s : String} {space : AddressSpace} (h : parse? s = some space) :
    space.length < 2 ^ 32 := by
  obtain ⟨_, _, _, _, _, number⟩ := parse?_eq_some_iff.1 h
  exact (length?_eq_some_iff.1 number).1

end AddressSpace

end CloudCanvas
