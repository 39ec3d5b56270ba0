import CloudCanvas.Proofs.Network.Prefix

/-!
# Ranges of addresses

An address comes back from its text, and so does the range of 256 addresses that is carved
out of a space: it is the one with its number, counted from the first address of the space, and
lies in the space.  Two ranges overlap if one is part of the other, that is, if they agree in
as many bits as the shorter of their lengths says, so ranges with different numbers do not.

## Main definitions

* `AddressSpace.Contains`, `AddressSpace.Overlaps`: the addresses of a space.
* `AddressSpace.block`: the range of 256 addresses with a number.

The main statements are `Ipv4.parse?_text`, `carveSubnet_eq_some_iff` and
`AddressSpace.overlaps_iff`.
-/

namespace CloudCanvas

/-! ## Addresses as text -/

namespace Ipv4

/-- The four parts of an address. -/
def parts (address : ℕ) : List (List Char) :=
  [16777216, 65536, 256, 1].map (fun unit => Nat.toDigits 10 (address / unit % 256))

theorem toList_text (address : ℕ) : (text address).toList = ['.'].intercalate (parts address) := by
  simp [text, parts]

theorem isDigit_of_mem_parts {address : ℕ} {part : List Char} (h : part ∈ parts address) :
    ∀ c ∈ part, c.isDigit = true := by
  obtain ⟨unit, -, rfl⟩ := List.mem_map.1 h
  exact fun _ => Nat.isDigit_of_mem_toDigits (by decide) (by decide)

/-- The text of an address is made of digits and points. -/
theorem isDigit_or_eq_of_mem_text {address : ℕ} {c : Char} (h : c ∈ (text address).toList) :
    c.isDigit = true ∨ c = '.' := by
  have digit : ∀ part ∈ parts address, c ∈ part → c.isDigit = true := fun _ mem =>
    isDigit_of_mem_parts mem c
  simp only [parts, List.map_cons, List.map_nil, List.forall_mem_cons] at digit
  simp only [toList_text, parts, List.map_cons, List.map_nil, List.intercalate_cons_cons,
    List.intercalate_singleton, List.mem_append, List.mem_singleton] at h
  grind

/-- One part of an address is read back. -/
theorem octet?_toDigits : ∀ n < 256, octet? (Nat.toDigits 10 n) = some n := by
  decide +kernel

/-- **An address comes back from its text.** -/
theorem parse?_text {address : ℕ} (h : address < 2 ^ 32) :
    parse? (text address).toList = some address := by
  have dotless : ∀ part ∈ parts address, '.' ∉ part := by
    intro part mem dot
    exact absurd (isDigit_of_mem_parts mem '.' dot) (by decide)
  have split : (text address).toList.splitOn '.' = parts address := by
    rw [toList_text, List.splitOn_intercalate _ dotless (List.cons_ne_nil _ _)]
  have octet : ∀ unit, octet? (Nat.toDigits 10 (address / unit % 256)) =
      some (address / unit % 256) := fun unit => octet?_toDigits _ (Nat.mod_lt _ (by decide))
  rw [parse?, split]
  simp only [parts, List.map_cons, List.map_nil, octet, Option.bind_eq_bind, Option.bind_some]
  refine congrArg some ?_
  omega

theorem octet?_lt {cs : List Char} {n : ℕ} (h : octet? cs = some n) : n < 256 := by
  obtain ⟨m, -, h⟩ := Option.bind_eq_some_iff.1 h
  split at h
  · rename_i valid
    cases h
    exact valid.1
  · cases h

/-- An address has 32 bits. -/
theorem parse?_lt {cs : List Char} {address : ℕ} (h : parse? cs = some address) :
    address < 2 ^ 32 := by
  rw [parse?] at h
  split at h
  · simp only [Option.bind_eq_bind, Option.bind_eq_some_iff] at h
    obtain ⟨a, ha, b, hb, c, hc, d, hd, same⟩ := h
    cases same
    have := octet?_lt ha
    have := octet?_lt hb
    have := octet?_lt hc
    have := octet?_lt hd
    omega
  · cases h

end Ipv4

/-! ## Spaces as text -/

namespace AddressSpace

variable {space other : AddressSpace} {s range : String} {ordinal : ℕ}

theorem exists_of_parse? (h : parse? s = some space) :
    ∃ cs, Ipv4.parse? cs = some space.base := by
  rw [parse?] at h
  split at h
  · obtain ⟨base, read, h⟩ := Option.bind_eq_some_iff.1 h
    obtain ⟨length, -, same⟩ := Option.bind_eq_some_iff.1 h
    cases same
    exact ⟨_, read⟩
  · cases h

theorem base_lt (h : parse? s = some space) : space.base < 2 ^ 32 := by
  obtain ⟨cs, read⟩ := exists_of_parse? h
  exact Ipv4.parse?_lt read

/-- A range of 256 addresses comes back from its text. -/
theorem parse?_text {address : ℕ} (h : address < 2 ^ 32) :
    parse? (Ipv4.text address ++ "/24") = some ⟨address, 24⟩ := by
  have chars : ∀ c ∈ (Ipv4.text address).toList, isBlank c = false ∧ (c != '/') = true := by
    intro c mem
    rcases Ipv4.isDigit_or_eq_of_mem_text mem with digit | rfl
    · exact ⟨isBlank_of_isDigit digit, bne_iff_ne.2 fun slash => by simp [slash] at digit⟩
    · decide
  have rest : "/24".toList = ['/', '2', '4'] := rfl
  have trim : trimBlank (Ipv4.text address ++ "/24") = Ipv4.text address ++ "/24" := by
    have plain : ∀ c ∈ ['/', '2', '4'], isBlank c = false := by simp [isBlank]
    refine trimBlank_eq_self fun c mem => ?_
    rw [String.toList_append, rest] at mem
    rcases List.mem_append.1 mem with text | length
    · exact (chars c text).1
    · exact plain c length
  have noSlash : ∀ c ∈ (Ipv4.text address).toList, (c != '/') = true := fun c mem =>
    (chars c mem).2
  rw [parse?, trim, String.toList_append, rest]
  simp only [List.dropWhile_append_of_pos noSlash, List.takeWhile_append_of_pos noSlash]
  simp [Ipv4.parse?_text h]
  rfl

/-! ## Addresses in a space -/

/-- The first bits of a space. -/
def leading (space : AddressSpace) (bits : ℕ) : ℕ :=
  space.base / 2 ^ (32 - bits)

/-- An address lies in a space: it has the first bits of the space. -/
def Contains (space : AddressSpace) (address : ℕ) : Prop :=
  address / 2 ^ (32 - space.length) = space.leading space.length

instance (space : AddressSpace) (address : ℕ) : Decidable (space.Contains address) :=
  inferInstanceAs (Decidable (_ = _))

/-- Some address lies in both spaces. -/
def Overlaps (space other : AddressSpace) : Prop :=
  ∃ address, space.Contains address ∧ other.Contains address

/-- The range of 256 addresses with a number in a space. -/
def block (space : AddressSpace) (ordinal : ℕ) : AddressSpace :=
  ⟨space.first + ordinal * 256, 24⟩

theorem Overlaps.symm (h : space.Overlaps other) : other.Overlaps space := by
  obtain ⟨address, inside, inOther⟩ := h
  exact ⟨address, inOther, inside⟩

/-- The first bits are what is left of more of them. -/
theorem leading_eq_div (space : AddressSpace) {bits more : ℕ} (le : bits ≤ more)
    (room : more ≤ 32) : space.leading bits = space.leading more / 2 ^ (more - bits) := by
  rw [leading, leading, Nat.div_div_eq_div_mul, ← Nat.pow_add]
  congr 2
  omega

private theorem overlaps_iff_of_le (le : space.length ≤ other.length) (room : other.length ≤ 32) :
    space.Overlaps other ↔ space.leading space.length = other.leading space.length := by
  constructor
  · intro ⟨address, inside, inOther⟩
    rw [other.leading_eq_div le room, ← inOther, ← inside, Nat.div_div_eq_div_mul, ← Nat.pow_add]
    congr 2
    omega
  · intro same
    exact ⟨other.base, same.symm, rfl⟩

/-- **Two spaces overlap if they agree in as many bits as the shorter length says.** -/
theorem overlaps_iff (room : space.length ≤ 32) (room' : other.length ≤ 32) :
    space.Overlaps other ↔ space.leading (min space.length other.length) =
      other.leading (min space.length other.length) := by
  rcases le_total space.length other.length with le | le
  · rw [min_eq_left le, overlaps_iff_of_le le room']
  · rw [min_eq_right le, eq_comm, ← overlaps_iff_of_le le room]
    exact ⟨Overlaps.symm, Overlaps.symm⟩

/-! ## Ranges of 256 addresses -/

section Wide

variable (wide : space.length ≤ 24)
include wide

/-- The addresses of a space make up a power of two of ranges. -/
theorem size_eq : 2 ^ (32 - space.length) = 2 ^ (24 - space.length) * 256 := by
  have bits : 32 - space.length = 24 - space.length + 8 := by omega
  rw [bits, Nat.pow_add]

/-- The number of a range is what follows the first bits of its space. -/
theorem first_add_eq (ordinal : ℕ) : space.first + ordinal * 256 =
    (space.leading space.length * 2 ^ (24 - space.length) + ordinal) * 256 := by
  have first : space.first = space.leading space.length * 2 ^ (32 - space.length) := rfl
  rw [first, size_eq wide, Nat.add_mul, Nat.mul_assoc]

variable (room : ordinal < 2 ^ (24 - space.length))
include room

theorem first_add_lt (base : space.base < 2 ^ 32) : space.first + ordinal * 256 < 2 ^ 32 := by
  have bits : 2 ^ 24 = 2 ^ space.length * 2 ^ (24 - space.length) := by
    rw [← Nat.pow_add, Nat.add_sub_cancel' wide]
  have leading : space.leading space.length < 2 ^ space.length := by
    rw [AddressSpace.leading, Nat.div_lt_iff_lt_mul (Nat.two_pow_pos _), ← Nat.pow_add]
    rwa [Nat.add_sub_cancel' (by omega)]
  have number : space.leading space.length * 2 ^ (24 - space.length) + ordinal < 2 ^ 24 := by
    rw [bits]
    calc space.leading space.length * 2 ^ (24 - space.length) + ordinal
        < (space.leading space.length + 1) * 2 ^ (24 - space.length) := by
          rw [Nat.succ_mul]
          omega
      _ ≤ 2 ^ space.length * 2 ^ (24 - space.length) := Nat.mul_le_mul_right _ leading
  rw [first_add_eq wide]
  omega

/-- **A range lies in its space.** -/
theorem Contains.of_block {address : ℕ} (h : (space.block ordinal).Contains address) :
    space.Contains address := by
  have number : address / 256 = space.leading space.length * 2 ^ (24 - space.length) + ordinal := by
    have : address / 256 = (space.first + ordinal * 256) / 256 := h
    rw [this, first_add_eq wide, Nat.mul_div_cancel _ (by decide)]
  rw [Contains, size_eq wide, Nat.mul_comm, ← Nat.div_div_eq_div_mul, number, Nat.mul_comm,
    Nat.mul_add_div (Nat.two_pow_pos _), Nat.div_eq_of_lt room, Nat.add_zero]

end Wide

/-- **Ranges with different numbers do not overlap.** -/
theorem not_overlaps_block {i j : ℕ} (ne : i ≠ j) :
    ¬ (space.block i).Overlaps (space.block j) := by
  intro ⟨address, inside, inOther⟩
  have number : ∀ ordinal, (space.block ordinal).Contains address →
      address / 256 = space.first / 256 + ordinal := by
    intro ordinal h
    rw [← Nat.add_mul_div_right _ _ (by decide)]
    exact h
  have := number i inside
  have := number j inOther
  omega

end AddressSpace

/-! ## Carving -/

/-- **What is carved out of a space is the range with a number.** -/
theorem carveSubnet_eq_some_iff {s range : String} {ordinal : ℕ} :
    carveSubnet s ordinal = some range ↔ ∃ space, AddressSpace.parse? s = some space ∧
      space.length ≤ 24 ∧ ordinal < 2 ^ (24 - space.length) ∧
        range = Ipv4.text (space.block ordinal).base ++ "/24" := by
  rw [carveSubnet, Option.bind_eq_bind, Option.bind_eq_some_iff]
  refine exists_congr fun space => and_congr_right fun _ => ?_
  rw [Option.ite_none_right_eq_some, and_assoc, Option.some_inj, eq_comm (b := range)]
  rfl

/-- The range that is carved out of a space is read from its text. -/
theorem parse?_of_carveSubnet {s range : String} {ordinal : ℕ}
    (h : carveSubnet s ordinal = some range) : ∃ space, AddressSpace.parse? s = some space ∧
      space.length ≤ 24 ∧ ordinal < 2 ^ (24 - space.length) ∧
        AddressSpace.parse? range = some (space.block ordinal) := by
  obtain ⟨space, read, wide, room, rfl⟩ := carveSubnet_eq_some_iff.1 h
  have lt := AddressSpace.first_add_lt wide room (AddressSpace.base_lt read)
  exact ⟨space, read, wide, room, AddressSpace.parse?_text lt⟩

end CloudCanvas
