import CloudCanvas.Proofs.Fold
import CloudCanvas.Proofs.Network.Written
import Mathlib.Data.Nat.Bitwise

/-!
# Carving in words

The ranges of a space are numbered in words of 32 and 64 bits.  Each operation is done in a
checked form here, which fails where a difference is negative, a shift is too wide or a bit gets
lost.  None of them ever fails, whatever the length of the space and the number asked for, and
the address that comes out is the one with the first bits of the space, the number behind them
and eight zeros.

## Main definitions

* `Lossy`: what can go wrong in an operation on words.
* `maskWord`, `carveWord`, `carveSubnetWord`: the carving in words.
* `AddressSpace.IsWritten`: a text names a space.
* `AddressSpace.Numbers`: the address of a range, by its bits.

The main statement is `carvesExactly`.
-/

namespace CloudCanvas

/-! ## Operations on words -/

/-- What goes wrong in an operation on words. -/
inductive Lossy where
  | borrow
  | shift
  | narrowing
  | overlap
deriving DecidableEq

section Words

variable {w v : ℕ} {x y : BitVec w}

/-- A difference that is not negative. -/
def exactSub (x y : BitVec w) : Except Lossy (BitVec w) :=
  if y.toNat ≤ x.toNat then .ok (x - y) else .error .borrow

/-- A word shifted by less than its width, if no bit leaves it. -/
def exactShift (x : BitVec w) (amount : ℕ) : Except Lossy (BitVec w) :=
  if amount < w ∧ x.toNat * 2 ^ amount < 2 ^ w then .ok (x <<< amount) else .error .shift

/-- A word in another width, if it fits. -/
def exactWidth (v : ℕ) (x : BitVec w) : Except Lossy (BitVec v) :=
  if x.toNat < 2 ^ v then .ok (x.setWidth v) else .error .narrowing

/-- Two words of which no bit is set in both. -/
def exactOr (x y : BitVec w) : Except Lossy (BitVec w) :=
  if x &&& y = 0 then .ok (x ||| y) else .error .overlap

/-- A word shifted by an amount, none if that is not less than the width.  Bits may leave. -/
def shiftWithin? (x : BitVec w) (amount : ℕ) : Option (BitVec w) :=
  if amount < w then some (x <<< amount) else none

theorem exactSub_eq (le : y.toNat ≤ x.toNat) :
    ∃ z, exactSub x y = .ok z ∧ z.toNat = x.toNat - y.toNat :=
  ⟨x - y, if_pos le, BitVec.toNat_sub_of_le le⟩

theorem exactShift_eq {amount : ℕ} (less : amount < w) (room : x.toNat * 2 ^ amount < 2 ^ w) :
    ∃ z, exactShift x amount = .ok z ∧ z.toNat = x.toNat * 2 ^ amount := by
  refine ⟨_, if_pos ⟨less, room⟩, ?_⟩
  rw [BitVec.toNat_shiftLeft, Nat.shiftLeft_eq, Nat.mod_eq_of_lt room]

theorem exactWidth_eq (room : x.toNat < 2 ^ v) :
    ∃ z, exactWidth v x = .ok z ∧ z.toNat = x.toNat :=
  ⟨_, if_pos room, by rw [BitVec.toNat_setWidth, Nat.mod_eq_of_lt room]⟩

theorem exactOr_eq (apart : x &&& y = 0) :
    ∃ z, exactOr x y = .ok z ∧ z.toNat = x.toNat + y.toNat := by
  refine ⟨_, if_pos apart, ?_⟩
  rw [← BitVec.add_eq_or_of_and_eq_zero x y apart, BitVec.toNat_add_of_and_eq_zero apart]

/-! ## Masks -/

/-- A mask of all bits but the last ones cuts these off. -/
theorem and_allOnes_shiftLeft (x : BitVec w) (low : ℕ) :
    x &&& (BitVec.allOnes w <<< low) = (x >>> low) <<< low := by
  ext i hi
  by_cases inside : i < low
  · simp [inside]
  · have place : low + (i - low) = i := by omega
    simp [inside, place, hi]

theorem toNat_and_allOnes_shiftLeft (x : BitVec w) (low : ℕ) :
    (x &&& (BitVec.allOnes w <<< low)).toNat = x.toNat / 2 ^ low * 2 ^ low := by
  rw [and_allOnes_shiftLeft, BitVec.toNat_shiftLeft, BitVec.toNat_ushiftRight, Nat.shiftLeft_eq,
    Nat.shiftRight_eq_div_pow]
  exact Nat.mod_eq_of_lt (Nat.lt_of_le_of_lt (Nat.div_mul_le_self _ _) x.isLt)

/-- What a mask leaves has no bit in common with what fits below it. -/
theorem and_allOnes_shiftLeft_and {low : ℕ} (below : y.toNat < 2 ^ low) :
    x &&& (BitVec.allOnes w <<< low) &&& y = 0 := by
  ext i hi
  by_cases inside : i < low
  · simp [inside]
  · have bound : y.toNat < 2 ^ i :=
      Nat.lt_of_lt_of_le below (Nat.pow_le_pow_right (by decide) (Nat.le_of_not_lt inside))
    have unset : y[i] = false := Nat.testBit_lt_two_pow bound
    simp [unset]

end Words

/-! ## Carving -/

/-- The word of which the first bits are set. -/
def maskWord (length : BitVec 32) : Except Lossy (BitVec 32) := do
  let low ← exactSub 32#32 length
  return (shiftWithin? (BitVec.allOnes 32) low.toNat).getD 0

/-- How many ranges there are behind the first bits of a space. -/
def roomWord (length : BitVec 32) : Except Lossy (BitVec 64) := do
  let bits ← exactSub 24#32 length
  exactShift 1#64 bits.toNat

/-- The first bits of a space and the number of a range behind them. -/
def addressWord (base length : BitVec 32) (ordinal : BitVec 64) : Except Lossy (BitVec 32) := do
  let mask ← maskWord length
  let number ← exactWidth 32 ordinal
  let offset ← exactShift number 8
  exactOr (base &&& mask) offset

/-- The first address of the range with a number, none if there is no such range. -/
def carveWord (base length : BitVec 32) (ordinal : BitVec 64) :
    Except Lossy (Option (BitVec 32)) := do
  if 24#32 < length then return none
  let room ← roomWord length
  if room ≤ ordinal then return none
  let address ← addressWord base length ordinal
  return some address

/-- The range with a number, in words. -/
def carveSubnetWord (s : String) (ordinal : BitVec 64) : Except Lossy (Option String) :=
  match AddressSpace.parse? s with
  | none => .ok none
  | some space => do
    let address ← carveWord (.ofNat 32 space.base) (.ofNat 32 space.length) ordinal
    return address.map (fun address => Ipv4.text address.toNat ++ "/24")

/-- The mask of a length is made of the first bits, also if there are none. -/
theorem maskWord_eq {length : BitVec 32} (le : length.toNat ≤ 32) :
    maskWord length = .ok (BitVec.allOnes 32 <<< (32 - length.toNat)) := by
  obtain ⟨low, sub, value⟩ := exactSub_eq (x := 32#32) (y := length) le
  have value : low.toNat = 32 - length.toNat := value
  rw [maskWord, sub, ok_bind, value, shiftWithin?]
  split
  · rfl
  · have none : length.toNat = 0 := by omega
    rw [none]
    rfl

section Wide

variable {length : BitVec 32} {ordinal : BitVec 64} (wide : length.toNat ≤ 24)
include wide

theorem roomWord_eq :
    ∃ room, roomWord length = .ok room ∧ room.toNat = 2 ^ (24 - length.toNat) := by
  obtain ⟨bits, sub, number⟩ := exactSub_eq (x := 24#32) wide
  have number : bits.toNat = 24 - length.toNat := number
  have most : 2 ^ bits.toNat ≤ 2 ^ 24 := Nat.pow_le_pow_right (by decide) (by omega)
  obtain ⟨room, shift, count⟩ := exactShift_eq (x := 1#64) (by omega : bits.toNat < 64)
    (by simp only [BitVec.toNat_ofNat]; omega)
  refine ⟨room, by rw [roomWord, sub, ok_bind, shift], ?_⟩
  simpa [number] using count

/-- The first bits and the number are joined without loss. -/
theorem addressWord_eq (base : BitVec 32) (inside : ordinal.toNat < 2 ^ (24 - length.toNat)) :
    ∃ address, addressWord base length ordinal = .ok address ∧
      address.toNat = (AddressSpace.block ⟨base.toNat, length.toNat⟩ ordinal.toNat).base := by
  have most : 2 ^ (24 - length.toNat) ≤ 2 ^ 24 :=
    Nat.pow_le_pow_right (by decide) (Nat.sub_le _ _)
  have size : 2 ^ (32 - length.toNat) = 2 ^ (24 - length.toNat) * 256 :=
    @AddressSpace.size_eq ⟨base.toNat, length.toNat⟩ wide
  obtain ⟨number, fits, value⟩ := exactWidth_eq (v := 32) (x := ordinal) (by omega)
  obtain ⟨offset, shift, place⟩ := exactShift_eq (x := number) (by decide : 8 < 32)
    (by omega)
  have below : offset.toNat < 2 ^ (32 - length.toNat) := by omega
  obtain ⟨address, joined, sum⟩ := exactOr_eq (and_allOnes_shiftLeft_and (x := base) below)
  refine ⟨address, ?_, ?_⟩
  · rw [addressWord, maskWord_eq (by omega), ok_bind, fits, ok_bind, shift, ok_bind, joined]
  · rw [sum, toNat_and_allOnes_shiftLeft, place, value]
    rfl

end Wide

/-- **In words nothing overflows and no bit is lost**, and what comes out is the range with the
number. -/
theorem carveWord_eq (base length : BitVec 32) (ordinal : BitVec 64) :
    ∃ answer, carveWord base length ordinal = .ok answer ∧ answer.map (·.toNat) =
      if length.toNat ≤ 24 ∧ ordinal.toNat < 2 ^ (24 - length.toNat)
      then some (AddressSpace.block ⟨base.toNat, length.toNat⟩ ordinal.toNat).base else none := by
  have short : 24#32 < length ↔ ¬ length.toNat ≤ 24 := by
    rw [BitVec.lt_def, Nat.not_le]
    rfl
  rw [carveWord]
  by_cases wide : length.toNat ≤ 24
  · obtain ⟨room, counted, count⟩ := roomWord_eq wide
    have beyond : room ≤ ordinal ↔ ¬ ordinal.toNat < 2 ^ (24 - length.toNat) := by
      rw [BitVec.le_def, count, Nat.not_lt]
    rw [if_neg (short.not.2 (not_not.2 wide)), counted, ok_bind]
    by_cases inside : ordinal.toNat < 2 ^ (24 - length.toNat)
    · obtain ⟨address, joined, value⟩ := addressWord_eq wide base inside
      rw [if_neg (beyond.not.2 (not_not.2 inside)), if_pos ⟨wide, inside⟩, joined, ← value]
      exact ⟨some address, rfl, rfl⟩
    · rw [if_pos (beyond.2 inside), if_neg fun both => inside both.2]
      exact ⟨none, rfl, rfl⟩
  · rw [if_pos (short.2 wide), if_neg fun both => wide both.1]
    exact ⟨none, rfl, rfl⟩

theorem carveSubnet_of_parse? {s : String} {space : AddressSpace} (ordinal : ℕ)
    (read : AddressSpace.parse? s = some space) : carveSubnet s ordinal =
      if space.length ≤ 24 ∧ ordinal < 2 ^ (24 - space.length)
      then some (Ipv4.text (space.block ordinal).base ++ "/24") else none := by
  rw [carveSubnet, read]
  rfl

/-- **What is carved in words is what is carved.** -/
theorem carveSubnetWord_eq (s : String) (ordinal : BitVec 64) :
    carveSubnetWord s ordinal = .ok (carveSubnet s ordinal.toNat) := by
  cases read : AddressSpace.parse? s with
  | none => rw [carveSubnetWord, carveSubnet, read]; rfl
  | some space =>
      have base : (BitVec.ofNat 32 space.base).toNat = space.base :=
        (BitVec.toNat_ofNat _ _).trans (Nat.mod_eq_of_lt (AddressSpace.base_lt read))
      have length : (BitVec.ofNat 32 space.length).toNat = space.length :=
        (BitVec.toNat_ofNat _ _).trans (Nat.mod_eq_of_lt (AddressSpace.length_lt read))
      obtain ⟨answer, carved, value⟩ :=
        carveWord_eq (.ofNat 32 space.base) (.ofNat 32 space.length) ordinal
      rw [base, length] at value
      have texts : answer.map (fun address => Ipv4.text address.toNat ++ "/24") =
          (answer.map (·.toNat)).map (fun address => Ipv4.text address ++ "/24") := by
        rw [Option.map_map]
        rfl
      simp only [carveSubnetWord, read, carved, ok_bind, texts, value,
        carveSubnet_of_parse? ordinal.toNat read, apply_ite (Option.map _)]
      rfl

/-! ## What is carved -/

namespace AddressSpace

/-- A text names a space: blanks around it not counting, the written forms of an address and of a
number stand around its first slash, the number perhaps with a plus sign and zeros in front. -/
def IsWritten (s : String) (space : AddressSpace) : Prop :=
  ∃ address length, (trimBlank s).toList = address ++ '/' :: length ∧ '/' ∉ address ∧
    (space.base < 2 ^ 32 ∧ address = (Ipv4.text space.base).toList) ∧
      space.length < 2 ^ 32 ∧ ∃ sign zeros, (sign = [] ∨ sign = ['+']) ∧
        length = sign ++ (List.replicate zeros '0' ++ Nat.toDigits 10 space.length)

/-- The address of the range with a number: it has the first bits of the space, then the bits of
the number up to the twenty-fourth, then zeros. -/
structure Numbers (space : AddressSpace) (ordinal address : ℕ) : Prop where
  bits : address < 2 ^ 32
  aligned : 256 ∣ address
  first : address / 2 ^ (32 - space.length) = space.base / 2 ^ (32 - space.length)
  next : address / 256 % 2 ^ (24 - space.length) = ordinal

theorem parse?_eq_some_iff_isWritten {s : String} {space : AddressSpace} :
    parse? s = some space ↔ IsWritten s space := by
  simp only [parse?_eq_some_iff, Ipv4.parse?_eq_some_iff, length?_eq_some_iff, IsWritten]

/-- The first address of a range is the one with these bits. -/
theorem numbers_iff {space : AddressSpace} {ordinal address : ℕ} (wide : space.length ≤ 24)
    (room : ordinal < 2 ^ (24 - space.length)) (base : space.base < 2 ^ 32) :
    space.Numbers ordinal address ↔ address = (space.block ordinal).base := by
  have start : (space.block ordinal).base =
      (space.leading space.length * 2 ^ (24 - space.length) + ordinal) * 256 :=
    space.first_add_eq wide ordinal
  have part : ∀ number, number * 256 / 2 ^ (32 - space.length) =
      number / 2 ^ (24 - space.length) := fun number => by
    rw [space.size_eq wide, Nat.mul_div_mul_right _ _ (by decide)]
  constructor
  · intro numbers
    obtain ⟨number, rfl⟩ := numbers.aligned
    have first := numbers.first
    have next := numbers.next
    rw [Nat.mul_comm, part] at first
    rw [Nat.mul_div_cancel_left _ (by decide)] at next
    rw [start, leading, ← first, ← next, Nat.div_add_mod', Nat.mul_comm]
  · intro eq
    have bits : address < 2 ^ 32 := eq ▸ first_add_lt wide room base
    rw [start] at eq
    refine ⟨bits, ⟨_, eq.trans (Nat.mul_comm _ _)⟩, ?_, ?_⟩
    · rw [eq, part, Nat.mul_comm, Nat.mul_add_div (Nat.two_pow_pos _), Nat.div_eq_of_lt room]
      rfl
    · rw [eq, Nat.mul_div_cancel _ (by decide), Nat.mul_comm, Nat.mul_add_mod,
        Nat.mod_eq_of_lt room]

end AddressSpace

/-- **Ranges are carved exactly** out of the space that a text names. -/
structure CarvesExactly (s : String) : Prop where
  /-- In words no operation overflows or loses a bit. -/
  words : ∀ ordinal : BitVec 64, carveSubnetWord s ordinal = .ok (carveSubnet s ordinal.toNat)
  /-- There is an answer exactly if the text names a space that has a range with the number. -/
  answers : ∀ ordinal, (carveSubnet s ordinal).isSome ↔ ∃ space, AddressSpace.IsWritten s space ∧
    space.length ≤ 24 ∧ ordinal < 2 ^ (24 - space.length)
  /-- The answer is the address with the first bits of the space and the number behind them. -/
  numbers : ∀ ordinal range, carveSubnet s ordinal = some range → ∃ space address,
    AddressSpace.IsWritten s space ∧ space.Numbers ordinal address ∧
      range = Ipv4.text address ++ "/24"
  /-- The range lies in the space. -/
  inside : ∀ ordinal range, carveSubnet s ordinal = some range → ∃ space block,
    AddressSpace.parse? s = some space ∧ AddressSpace.parse? range = some block ∧
      ∀ address, block.Contains address → space.Contains address
  /-- A range with a greater number lies behind, and the two have no address in common. -/
  apart : ∀ i j first second, i < j → carveSubnet s i = some first →
    carveSubnet s j = some second → ∃ block later, AddressSpace.parse? first = some block ∧
      AddressSpace.parse? second = some later ∧ block.base < later.base ∧ ¬ block.Overlaps later

variable {s : String}

theorem isSome_carveSubnet_iff_isWritten {ordinal : ℕ} : (carveSubnet s ordinal).isSome ↔
    ∃ space, AddressSpace.IsWritten s space ∧ space.length ≤ 24 ∧
      ordinal < 2 ^ (24 - space.length) := by
  rw [isSome_carveSubnet_iff, AddressSpace.HasRange]
  simp only [AddressSpace.parse?_eq_some_iff_isWritten]

theorem exists_numbers_of_carveSubnet {ordinal : ℕ} {range : String}
    (carved : carveSubnet s ordinal = some range) : ∃ space address,
      AddressSpace.IsWritten s space ∧ space.Numbers ordinal address ∧
        range = Ipv4.text address ++ "/24" := by
  obtain ⟨space, read, wide, room, text⟩ := carveSubnet_eq_some_iff.1 carved
  refine ⟨space, _, AddressSpace.parse?_eq_some_iff_isWritten.1 read, ?_, text⟩
  exact (AddressSpace.numbers_iff wide room (AddressSpace.base_lt read)).2 rfl

/-- **Carving is exact for every text and every number.** -/
theorem carvesExactly (s : String) : CarvesExactly s where
  words := carveSubnetWord_eq s
  answers _ := isSome_carveSubnet_iff_isWritten
  numbers _ _ := exists_numbers_of_carveSubnet
  inside ordinal range carved := by
    obtain ⟨space, read, wide, room, block⟩ := parse?_of_carveSubnet carved
    exact ⟨space, _, read, block, fun _ => AddressSpace.Contains.of_block wide room⟩
  apart i j first second less carved carved' := by
    obtain ⟨space, read, -, -, block⟩ := parse?_of_carveSubnet carved
    obtain ⟨space', read', -, -, later⟩ := parse?_of_carveSubnet carved'
    obtain rfl : space = space' := Option.some.inj (read.symm.trans read')
    refine ⟨_, _, block, later, ?_, AddressSpace.not_overlaps_block (Nat.ne_of_lt less)⟩
    simp only [AddressSpace.block]
    omega

/-- No bit of the address counts, and the number has all the bits that there are. -/
example : carveSubnetWord " 1.2.3.4/+0" 0xffffff#64 = .ok (some "255.255.255.0/24") := by
  decide +kernel

end CloudCanvas
