import DiskPartitions.ListSlices
import Mathlib.Tactic.Ring

/-!
# Little-endian byte fields

Fixed-width unsigned integers as the byte lists a disk stores them in.  The
widths are those of the machine types, so reading back a stored integer below
the field's range gives the same integer, and every list of bytes is the
encoding of the integer it denotes.
-/

namespace LittleEndian

open Slices

/-- The `width` low bytes of `value`, least significant first. -/
def encode : Nat → Nat → List UInt8
  | 0, _ => []
  | width + 1, value => UInt8.ofNat (value % 256) :: encode width (value / 256)

/-- The number a list of bytes denotes, least significant first. -/
def decode : List UInt8 → Nat
  | [] => 0
  | byte :: bytes => byte.toNat + 256 * decode bytes

@[simp]
theorem length_encode (width value : Nat) : (encode width value).length = width := by
  induction width generalizing value with
  | zero => rfl
  | succ width ih => simp [encode, ih]

theorem decode_lt (bytes : List UInt8) : decode bytes < 256 ^ bytes.length := by
  induction bytes with
  | nil => simp [decode]
  | cons byte bytes ih =>
      have byteBound : byte.toNat < 256 := byte.toNat_lt
      rw [decode, List.length_cons, pow_succ]
      omega

theorem decode_encode {width value : Nat} (bounded : value < 256 ^ width) :
    decode (encode width value) = value := by
  induction width generalizing value with
  | zero =>
      rw [pow_zero] at bounded
      simp only [encode, decode]
      omega
  | succ width ih =>
      rw [pow_succ] at bounded
      have lowByte : (UInt8.ofNat (value % 256)).toNat = value % 256 :=
        UInt8.toNat_ofNat_of_lt' (Nat.mod_lt _ (by decide))
      rw [encode, decode, ih (by omega), lowByte]
      omega

theorem encode_decode (bytes : List UInt8) :
    encode bytes.length (decode bytes) = bytes := by
  induction bytes with
  | nil => rfl
  | cons byte bytes ih =>
      have byteBound : byte.toNat < 256 := byte.toNat_lt
      have low : (byte.toNat + 256 * decode bytes) % 256 = byte.toNat := by omega
      have high : (byte.toNat + 256 * decode bytes) / 256 = decode bytes := by omega
      rw [List.length_cons, decode, encode, low, high, ih, UInt8.ofNat_toNat]

/-- The little-endian integer in the `width` bytes at `offset`. -/
def field (bytes : List UInt8) (offset width : Nat) : Nat :=
  decode (slice bytes offset width)

theorem field_lt (bytes : List UInt8) (offset width : Nat) :
    field bytes offset width < 256 ^ width := by
  have sliceLength : (slice bytes offset width).length ≤ width := by
    simp only [slice, List.length_take]
    omega
  exact lt_of_lt_of_le (decode_lt _) (Nat.pow_le_pow_right (by decide) sliceLength)

/-- A field that holds the encoding of a number reads as it. -/
theorem field_of_slice {source : List UInt8} {offset width value : Nat}
    (stored : slice source offset width = encode width value) (bounded : value < 256 ^ width) :
    field source offset width = value := by
  rw [field, stored, decode_encode bounded]

theorem field_append_right {head tail : List UInt8} {offset width : Nat}
    (past : head.length ≤ offset) :
    field (head ++ tail) offset width = field tail (offset - head.length) width := by
  rw [field, field, slice_append_right past]

/-- A number at the front reads as it was written. -/
theorem field_encode_append {width value : Nat} (bounded : value < 256 ^ width)
    (tail : List UInt8) : field (encode width value ++ tail) 0 width = value := by
  have whole := slice_full (encode width value)
  rw [length_encode] at whole
  rw [field, slice_append_left (by simp), whole, decode_encode bounded]

/-- A number among the parts of a block reads as it was written. -/
theorem field_flatten (front back : List (List UInt8)) {offset width value : Nat}
    (place : front.flatten.length = offset) (bounded : value < 256 ^ width) :
    field (front ++ encode width value :: back).flatten offset width = value := by
  rw [List.flatten_append, List.flatten_cons, field_append_right (Nat.le_of_eq place), place,
    Nat.sub_self, field_encode_append bounded]

/-- The 16-bit integer at `offset`. -/
def u16At (bytes : List UInt8) (offset : Nat) : UInt16 :=
  UInt16.ofNat (field bytes offset 2)

/-- The 32-bit integer at `offset`. -/
def u32At (bytes : List UInt8) (offset : Nat) : UInt32 :=
  UInt32.ofNat (field bytes offset 4)

/-- The 64-bit integer at `offset`. -/
def u64At (bytes : List UInt8) (offset : Nat) : UInt64 :=
  UInt64.ofNat (field bytes offset 8)

theorem toNat_u32At (bytes : List UInt8) (offset : Nat) :
    (u32At bytes offset).toNat = field bytes offset 4 :=
  UInt32.toNat_ofNat_of_lt' (by simpa using field_lt bytes offset 4)

/-- The four bytes of a 32-bit integer. -/
def u32Bytes (value : UInt32) : List UInt8 := encode 4 value.toNat

/-- The eight bytes of a 64-bit integer. -/
def u64Bytes (value : UInt64) : List UInt8 := encode 8 value.toNat

@[simp]
theorem length_u32Bytes (value : UInt32) : (u32Bytes value).length = 4 :=
  length_encode 4 _

@[simp]
theorem length_u64Bytes (value : UInt64) : (u64Bytes value).length = 8 :=
  length_encode 8 _

/-- A region holding the bytes of a 32-bit integer reads as that integer. -/
theorem u32At_of_slice {bytes : List UInt8} {offset : Nat} {value : UInt32}
    (stored : slice bytes offset 4 = u32Bytes value) : u32At bytes offset = value := by
  rw [u32At, field, stored, u32Bytes, decode_encode (by simpa using value.toNat_lt),
    UInt32.ofNat_toNat]

/-- A region holding the bytes of a 64-bit integer reads as that integer. -/
theorem u64At_of_slice {bytes : List UInt8} {offset : Nat} {value : UInt64}
    (stored : slice bytes offset 8 = u64Bytes value) : u64At bytes offset = value := by
  rw [u64At, field, stored, u64Bytes, decode_encode (by simpa using value.toNat_lt),
    UInt64.ofNat_toNat]

/-- A four-byte region is the encoding of the integer it reads as. -/
theorem u32Bytes_u32At {bytes : List UInt8} {offset : Nat}
    (inside : offset + 4 ≤ bytes.length) :
    u32Bytes (u32At bytes offset) = slice bytes offset 4 := by
  have width : (slice bytes offset 4).length = 4 := length_slice inside
  have stored := encode_decode (slice bytes offset 4)
  rw [width] at stored
  rw [u32Bytes, toNat_u32At, field, stored]

theorem u32Bytes_injective : Function.Injective u32Bytes := by
  intro first second same
  have values := congrArg decode same
  rw [u32Bytes, u32Bytes, decode_encode (by simpa using first.toNat_lt),
    decode_encode (by simpa using second.toNat_lt)] at values
  exact UInt32.toNat_inj.mp values

end LittleEndian
