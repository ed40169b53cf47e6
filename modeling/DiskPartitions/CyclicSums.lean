import DiskPartitions.ListSlices
import Mathlib.Data.Nat.Bitwise

/-!
# Reflected 32-bit cyclic redundancy sums

The bitwise register that checksums fold their bytes into, for any polynomial and
seed, and the sum of the GPT specification built from it.  The register never
forgets: one changed byte changes the sum, whatever comes after it.
-/

namespace CyclicSums

/-- One bit of the register. -/
def bitStep (polynomial crc : UInt32) : UInt32 :=
  if crc &&& 1 = 1 then (crc >>> 1) ^^^ polynomial else crc >>> 1

/-- One byte of the register. -/
def byteStep (polynomial crc : UInt32) (byte : UInt8) : UInt32 :=
  (List.range 8).foldl (fun crc _ => bitStep polynomial crc) (crc ^^^ byte.toUInt32)

/-- The register after all the bytes. -/
def register (polynomial seed : UInt32) (bytes : List UInt8) : UInt32 :=
  bytes.foldl (byteStep polynomial) seed

/-- CRC-32 as the GPT specification uses it. -/
def ieee (bytes : List UInt8) : UInt32 :=
  register 0xEDB88320 0xFFFFFFFF bytes ^^^ 0xFFFFFFFF

example : ieee [0x31, 0x32, 0x33, 0x34, 0x35, 0x36, 0x37, 0x38, 0x39] = 0xCBF43926 := by
  decide +kernel

theorem low_bit_iff (crc : UInt32) : crc &&& 1 = 1 ↔ crc.toNat % 2 = 1 := by
  rw [← UInt32.toNat_inj, UInt32.toNat_and]
  change crc.toNat &&& 1 = 1 ↔ _
  rw [Nat.and_one_is_mod]

theorem toNat_shiftRight_one (crc : UInt32) : (crc >>> 1).toNat = crc.toNat / 2 := by
  rw [UInt32.toNat_shiftRight]
  change crc.toNat >>> 1 = _
  rw [Nat.shiftRight_eq_div_pow]

/-- A polynomial of full degree makes a step reversible: the top bit of the result
tells which branch was taken. -/
theorem bitStep_injective {polynomial : UInt32} (full : 2 ^ 31 ≤ polynomial.toNat) :
    Function.Injective (bitStep polynomial) := by
  intro x y same
  have halfX := x.toNat_lt
  have halfY := y.toNat_lt
  have values := congrArg UInt32.toNat same
  unfold bitStep at values
  rw [← UInt32.toNat_inj]
  by_cases oddX : x &&& 1 = 1 <;> by_cases oddY : y &&& 1 = 1
  · rw [if_pos oddX, if_pos oddY, UInt32.toNat_xor, UInt32.toNat_xor, toNat_shiftRight_one,
      toNat_shiftRight_one, Nat.xor_left_inj] at values
    rw [low_bit_iff] at oddX oddY
    omega
  · rw [if_pos oddX, if_neg oddY, UInt32.toNat_xor, toNat_shiftRight_one,
      toNat_shiftRight_one] at values
    have small := Nat.xor_lt_two_pow (by omega : x.toNat / 2 < 2 ^ 31)
      (by omega : y.toNat / 2 < 2 ^ 31)
    rw [← values, ← Nat.xor_assoc, Nat.xor_self, Nat.zero_xor] at small
    omega
  · rw [if_neg oddX, if_pos oddY, UInt32.toNat_xor, toNat_shiftRight_one,
      toNat_shiftRight_one] at values
    have small := Nat.xor_lt_two_pow (by omega : y.toNat / 2 < 2 ^ 31)
      (by omega : x.toNat / 2 < 2 ^ 31)
    rw [values, ← Nat.xor_assoc, Nat.xor_self, Nat.zero_xor] at small
    omega
  · rw [if_neg oddX, if_neg oddY, toNat_shiftRight_one, toNat_shiftRight_one] at values
    rw [low_bit_iff] at oddX oddY
    omega

section Injective

variable {polynomial : UInt32} (full : 2 ^ 31 ≤ polynomial.toNat)

include full

theorem foldl_bitStep_injective (rounds : List Nat) :
    Function.Injective fun crc => rounds.foldl (fun crc _ => bitStep polynomial crc) crc := by
  induction rounds with
  | nil => exact Function.injective_id
  | cons _ rounds ih => exact ih.comp (bitStep_injective full)

theorem byteStep_injective (byte : UInt8) :
    Function.Injective fun crc => byteStep polynomial crc byte := by
  intro x y same
  exact (UInt32.xor_left_inj _).mp (foldl_bitStep_injective full _ same)

theorem byteStep_byte_injective (crc : UInt32) :
    Function.Injective (byteStep polynomial crc) := by
  intro a b same
  have bytes := (UInt32.xor_right_inj _).mp (foldl_bitStep_injective full _ same)
  rw [← UInt8.toNat_inj]
  simpa using congrArg UInt32.toNat bytes

theorem register_injective (bytes : List UInt8) :
    Function.Injective fun seed => register polynomial seed bytes := by
  induction bytes with
  | nil => exact Function.injective_id
  | cons byte bytes ih => exact ih.comp (byteStep_injective full byte)

end Injective

/-- One changed byte changes the sum. -/
theorem ieee_ne_of_byte {a b : UInt8} (changed : a ≠ b) (front back : List UInt8) :
    ieee (front ++ a :: back) ≠ ieee (front ++ b :: back) := by
  intro same
  have registers := (UInt32.xor_left_inj _).mp same
  simp only [register, List.foldl_append, List.foldl_cons] at registers
  have steps := register_injective (by decide) back registers
  exact changed (byteStep_byte_injective (by decide) _ steps)

/-! ## A byte at a time from a table -/

/-- The low bits of two registers, combined. -/
theorem low_bit_xor (x y : UInt32) :
    (x ^^^ y) &&& 1 = 1 ↔ ¬ (x &&& 1 = 1 ↔ y &&& 1 = 1) := by
  rw [low_bit_iff, low_bit_iff, low_bit_iff, UInt32.toNat_xor, Nat.xor_mod_two_eq_one]

/-- A step is linear over exclusive or. -/
theorem bitStep_xor (polynomial x y : UInt32) :
    bitStep polynomial (x ^^^ y) = bitStep polynomial x ^^^ bitStep polynomial y := by
  have halves : (x ^^^ y) >>> 1 = x >>> 1 ^^^ y >>> 1 := UInt32.shiftRight_xor
  unfold bitStep
  rw [halves]
  by_cases oddX : x &&& 1 = 1 <;> by_cases oddY : y &&& 1 = 1
  · rw [if_neg (by rw [low_bit_xor]; simp [oddX, oddY]), if_pos oddX, if_pos oddY]
    -- the polynomial is added twice, which takes it out
    calc x >>> 1 ^^^ y >>> 1 = x >>> 1 ^^^ y >>> 1 ^^^ (polynomial ^^^ polynomial) := by
          rw [UInt32.xor_self, UInt32.xor_zero]
      _ = x >>> 1 ^^^ polynomial ^^^ (y >>> 1 ^^^ polynomial) := by ac_rfl
  · rw [if_pos (by rw [low_bit_xor]; simp [oddX, oddY]), if_pos oddX, if_neg oddY]
    ac_rfl
  · rw [if_pos (by rw [low_bit_xor]; simp [oddX, oddY]), if_neg oddX, if_pos oddY]
    ac_rfl
  · rw [if_neg (by rw [low_bit_xor]; simp [oddX, oddY]), if_neg oddX, if_neg oddY]

theorem foldl_bitStep_xor (polynomial : UInt32) (rounds : List Nat) (x y : UInt32) :
    rounds.foldl (fun crc _ => bitStep polynomial crc) (x ^^^ y) =
      rounds.foldl (fun crc _ => bitStep polynomial crc) x ^^^
        rounds.foldl (fun crc _ => bitStep polynomial crc) y := by
  induction rounds generalizing x y with
  | nil => rfl
  | cons _ rounds ih =>
      rw [List.foldl_cons, List.foldl_cons, List.foldl_cons, bitStep_xor]
      exact ih _ _

/-- A register whose low bits are clear is only shifted. -/
theorem foldl_bitStep_clear (polynomial : UInt32) (rounds : List Nat) {x : UInt32}
    (clear : 2 ^ rounds.length ∣ x.toNat) :
    (rounds.foldl (fun crc _ => bitStep polynomial crc) x).toNat =
      x.toNat / 2 ^ rounds.length := by
  induction rounds generalizing x with
  | nil => simp
  | cons _ rounds ih =>
      rw [List.length_cons, Nat.pow_succ] at clear ⊢
      have even : ¬ (x &&& 1 = 1) := by
        rw [low_bit_iff]
        have := (Nat.dvd_mul_left 2 (2 ^ rounds.length)).trans clear
        omega
      have shifted : bitStep polynomial x = x >>> 1 := if_neg even
      have still : 2 ^ rounds.length ∣ (x >>> 1).toNat := by
        rw [toNat_shiftRight_one]
        exact Nat.dvd_div_of_mul_dvd (by rwa [Nat.mul_comm])
      rw [List.foldl_cons, shifted, ih still, toNat_shiftRight_one, Nat.div_div_eq_div_mul,
        Nat.mul_comm]

/-- The register without its low byte. -/
theorem toNat_xor_low (x : UInt32) : (x ^^^ (x &&& 0xff)).toNat = x.toNat / 2 ^ 8 * 2 ^ 8 := by
  rw [UInt32.toNat_xor, UInt32.toNat_and]
  change x.toNat ^^^ (x.toNat &&& 2 ^ 8 - 1) = _
  rw [Nat.and_two_pow_sub_one_eq_mod]
  apply Nat.eq_of_testBit_eq
  intro i
  rw [Nat.testBit_xor, Nat.testBit_mod_two_pow, Nat.testBit_mul_two_pow, Nat.testBit_div_two_pow]
  by_cases low : i < 8
  · simp [low, Nat.not_le.mpr low]
  · simp [low, Nat.not_lt.mp low]

/-- Eight steps are those of the low byte, with the rest of the register moved down. -/
theorem foldl_bitStep_eight (polynomial x : UInt32) :
    (List.range 8).foldl (fun crc _ => bitStep polynomial crc) x =
      (List.range 8).foldl (fun crc _ => bitStep polynomial crc) (x &&& 0xff) ^^^ x >>> 8 := by
  have parted : x = (x &&& 0xff) ^^^ (x ^^^ (x &&& 0xff)) := by
    rw [UInt32.xor_comm x, ← UInt32.xor_assoc, UInt32.xor_self, UInt32.zero_xor]
  have high : (List.range 8).foldl (fun crc _ => bitStep polynomial crc) (x ^^^ (x &&& 0xff)) =
      x >>> 8 := by
    rw [← UInt32.toNat_inj, foldl_bitStep_clear, toNat_xor_low, UInt32.toNat_shiftRight]
    · change x.toNat / 2 ^ 8 * 2 ^ 8 / 2 ^ 8 = x.toNat >>> 8
      rw [Nat.mul_div_cancel _ (by decide), Nat.shiftRight_eq_div_pow]
    · rw [toNat_xor_low]
      exact Nat.dvd_mul_left _ _
  calc (List.range 8).foldl (fun crc _ => bitStep polynomial crc) x =
        (List.range 8).foldl (fun crc _ => bitStep polynomial crc)
          ((x &&& 0xff) ^^^ (x ^^^ (x &&& 0xff))) := by rw [← parted]
    _ = _ := by rw [foldl_bitStep_xor, high]

theorem shiftRight_byte (byte : UInt8) : byte.toUInt32 >>> 8 = 0 := by
  rw [← UInt32.toNat_inj, UInt32.toNat_shiftRight, UInt8.toNat_toUInt32]
  change byte.toNat >>> 8 = 0
  rw [Nat.shiftRight_eq_div_pow]
  exact Nat.div_eq_of_lt byte.toNat_lt

/-- A byte of the register, with the eight steps of a byte looked up. -/
theorem byteStep_eq (polynomial crc : UInt32) (byte : UInt8) :
    byteStep polynomial crc byte =
      (List.range 8).foldl (fun crc _ => bitStep polynomial crc)
        ((crc ^^^ byte.toUInt32) &&& 0xff) ^^^ crc >>> 8 := by
  rw [byteStep, foldl_bitStep_eight, UInt32.shiftRight_xor, shiftRight_byte, UInt32.xor_zero]

/-! ## Bursts -/

/-- Up to four bytes as they meet the register, the first lowest. -/
def word : List UInt8 → UInt32
  | [] => 0
  | byte :: bytes => byte.toUInt32 ^^^ word bytes <<< 8

theorem toNat_shiftLeft_eight {w : UInt32} (small : w.toNat < 2 ^ 24) :
    (w <<< 8).toNat = w.toNat * 2 ^ 8 := by
  rw [UInt32.toNat_shiftLeft]
  change w.toNat <<< 8 % 2 ^ 32 = _
  rw [Nat.shiftLeft_eq, Nat.mod_eq_of_lt (by omega)]

theorem word_lt {bytes : List UInt8} (short : bytes.length ≤ 4) :
    (word bytes).toNat < 2 ^ (8 * bytes.length) := by
  induction bytes with
  | nil => decide
  | cons byte bytes ih =>
      rw [List.length_cons] at short
      have low := byte.toNat_lt
      have rest := ih (by omega)
      have cap : 2 ^ (8 * bytes.length) ≤ 2 ^ 24 := Nat.pow_le_pow_right (by decide) (by omega)
      have grows : 2 ^ (8 * (bytes.length + 1)) = 2 ^ (8 * bytes.length) * 2 ^ 8 := by
        rw [Nat.mul_succ, Nat.pow_add]
      have positive : 0 < 2 ^ (8 * bytes.length) := Nat.two_pow_pos _
      rw [word, UInt32.toNat_xor, toNat_shiftLeft_eight (by omega), UInt8.toNat_toUInt32,
        List.length_cons]
      apply Nat.xor_lt_two_pow
      · rw [grows]
        calc byte.toNat < 2 ^ 8 := low
          _ ≤ 2 ^ (8 * bytes.length) * 2 ^ 8 := Nat.le_mul_of_pos_left _ positive
      · rw [grows]
        exact Nat.mul_lt_mul_of_pos_right rest (by decide)

/-- Up to four bytes are told apart by the word they make. -/
theorem word_injective {first second : List UInt8} (same : first.length = second.length)
    (short : first.length ≤ 4) (equal : word first = word second) : first = second := by
  induction first generalizing second with
  | nil => exact (List.length_eq_zero_iff.mp same.symm).symm
  | cons byte bytes ih =>
      cases second with
      | nil => cases same
      | cons other others =>
          rw [List.length_cons] at short
          have counted : bytes.length = others.length := Nat.succ.inj same
          have below : ∀ rest : List UInt8, rest.length ≤ 3 → (word rest).toNat < 2 ^ 24 := by
            intro rest few
            refine Nat.lt_of_lt_of_le (word_lt (by omega)) ?_
            exact Nat.pow_le_pow_right (by decide) (by omega)
          have values := congrArg UInt32.toNat equal
          rw [word, word, UInt32.toNat_xor, UInt32.toNat_xor,
            toNat_shiftLeft_eight (below bytes (by omega)),
            toNat_shiftLeft_eight (below others (by omega)), UInt8.toNat_toUInt32,
            UInt8.toNat_toUInt32] at values
          have low := congrArg (· % 2 ^ 8) values
          have high := congrArg (· / 2 ^ 8) values
          simp only [Nat.xor_mod_two_pow, Nat.xor_div_two_pow, Nat.mul_mod_left, Nat.xor_zero,
            Nat.mod_eq_of_lt byte.toNat_lt, Nat.mod_eq_of_lt other.toNat_lt,
            Nat.div_eq_of_lt byte.toNat_lt, Nat.div_eq_of_lt other.toNat_lt, Nat.zero_xor,
            Nat.mul_div_cancel _ (show 0 < 2 ^ 8 by decide)] at low high
          rw [UInt8.toNat_inj.mp low, ih counted (by omega) (UInt32.toNat_inj.mp high)]

/-- Up to four bytes go through the register as one word. -/
theorem register_eq_word (polynomial : UInt32) {bytes : List UInt8} (short : bytes.length ≤ 4)
    (seed : UInt32) : register polynomial seed bytes =
      (List.range (8 * bytes.length)).foldl (fun crc _ => bitStep polynomial crc)
        (seed ^^^ word bytes) := by
  induction bytes generalizing seed with
  | nil => exact (UInt32.xor_zero).symm
  | cons byte bytes ih =>
      rw [List.length_cons] at short
      have small : (word bytes).toNat < 2 ^ 24 := by
        refine Nat.lt_of_lt_of_le (word_lt (by omega)) ?_
        exact Nat.pow_le_pow_right (by decide) (by omega)
      have moved : (List.range 8).foldl (fun crc _ => bitStep polynomial crc) (word bytes <<< 8) =
          word bytes := by
        rw [← UInt32.toNat_inj, foldl_bitStep_clear, toNat_shiftLeft_eight small]
        · exact Nat.mul_div_cancel _ (by decide)
        · rw [toNat_shiftLeft_eight small]
          exact Nat.dvd_mul_left _ _
      have step : byteStep polynomial seed byte ^^^ word bytes =
          (List.range 8).foldl (fun crc _ => bitStep polynomial crc)
            (seed ^^^ word (byte :: bytes)) := by
        rw [word, ← UInt32.xor_assoc, foldl_bitStep_xor, moved]
        rfl
      change register polynomial (byteStep polynomial seed byte) bytes = _
      rw [ih (by omega), step]
      simp only [List.foldl_const, List.length_range, List.length_cons]
      rw [← Function.iterate_add_apply, Nat.mul_succ]

/-- A burst of at most four changed bytes changes the register, wherever it is. -/
theorem register_ne_of_burst {polynomial : UInt32} (full : 2 ^ 31 ≤ polynomial.toNat)
    {burst damage : List UInt8} (same : burst.length = damage.length) (short : burst.length ≤ 4)
    (changed : burst ≠ damage) (seed : UInt32) (front back : List UInt8) :
    register polynomial seed (front ++ burst ++ back) ≠
      register polynomial seed (front ++ damage ++ back) := by
  intro equal
  unfold register at equal
  rw [List.foldl_append, List.foldl_append, List.foldl_append, List.foldl_append] at equal
  have burstOnly := register_injective full back equal
  change register polynomial (register polynomial seed front) burst =
    register polynomial (register polynomial seed front) damage at burstOnly
  have few : damage.length ≤ 4 := by omega
  rw [register_eq_word polynomial short (register polynomial seed front),
    register_eq_word polynomial few (register polynomial seed front), same] at burstOnly
  have words := (UInt32.xor_right_inj _).mp (foldl_bitStep_injective full _ burstOnly)
  exact changed (word_injective same short words)

open Slices

/-- Two byte strings that differ in nothing but the four bytes from `start` on. -/
structure BurstAt (start : Nat) (first second : List UInt8) : Prop where
  length : first.length = second.length
  outside : ∀ i, i < start ∨ start + 4 ≤ i → first[i]? = second[i]?

namespace BurstAt

variable {start : Nat} {first second : List UInt8}

/-- Writing up to four bytes is a burst. -/
theorem of_splice {bytes data : List UInt8} {offset : Nat} (short : data.length ≤ 4)
    (inside : offset + data.length ≤ bytes.length) :
    BurstAt offset (splice bytes offset data) bytes where
  length := length_splice inside
  outside i apart := by rw [getElem?_splice inside, if_neg (by omega)]

theorem slice (burst : BurstAt start first second) (offset len : Nat) :
    BurstAt (start - offset) (slice first offset len) (slice second offset len) where
  length := by
    simp only [Slices.slice, List.length_take, List.length_drop, burst.length]
  outside i apart := by
    rw [getElem?_slice, getElem?_slice, burst.outside (offset + i) (by omega)]

theorem splice (burst : BurstAt start first second) {offset : Nat} {data : List UInt8}
    (inside : offset + data.length ≤ second.length) :
    BurstAt start (splice first offset data) (splice second offset data) where
  length := by
    rw [length_splice inside, length_splice (burst.length ▸ inside), burst.length]
  outside i apart := by
    rw [getElem?_splice inside, getElem?_splice (burst.length ▸ inside), burst.outside i apart]

theorem drop (burst : BurstAt start first second) (front : Nat) :
    BurstAt (start - front) (first.drop front) (second.drop front) where
  length := by rw [List.length_drop, List.length_drop, burst.length]
  outside i apart := by
    rw [List.getElem?_drop, List.getElem?_drop, burst.outside (front + i) (by omega)]

/-- A register tells apart byte strings that differ in a burst. -/
theorem eq_of_register {polynomial : UInt32} (full : 2 ^ 31 ≤ polynomial.toNat) (seed : UInt32)
    (burst : BurstAt start first second)
    (equal : register polynomial seed first = register polynomial seed second) :
    first = second := by
  have front : first.take start = second.take start := by
    apply List.ext_getElem?
    intro i
    rw [List.getElem?_take, List.getElem?_take]
    split
    next before => exact burst.outside i (.inl before)
    next => rfl
  have back : first.drop (start + 4) = second.drop (start + 4) := by
    apply List.ext_getElem?
    intro i
    rw [List.getElem?_drop, List.getElem?_drop, burst.outside _ (.inr (Nat.le_add_right _ _))]
  have parted : ∀ bytes : List UInt8, bytes =
      bytes.take start ++ Slices.slice bytes start 4 ++ bytes.drop (start + 4) := by
    intro bytes
    rw [Slices.slice, List.append_assoc, ← List.drop_drop, List.take_append_drop,
      List.take_append_drop]
  have widths := (burst.slice start 4).length
  by_contra differ
  have changed : Slices.slice first start 4 ≠ Slices.slice second start 4 := by
    intro same
    apply differ
    rw [parted first, parted second, front, same, back]
  rw [parted first, parted second, front, back] at equal
  exact register_ne_of_burst full widths (List.length_take_le _ _) changed _ _ _ equal

/-- So does the sum. -/
theorem eq_of_ieee (burst : BurstAt start first second) (equal : ieee first = ieee second) :
    first = second :=
  burst.eq_of_register (by decide) _ ((UInt32.xor_left_inj _).mp equal)

end BurstAt

end CyclicSums
