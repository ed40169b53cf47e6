import Mathlib.Data.List.Basic

/-!
# UTF-8 text, decoded lossily

The decoding of arbitrary bytes as UTF-8 that never fails: each maximal run of bytes that
starts a sequence and does not finish it is replaced by U+FFFD, and so is a byte that
starts none.
-/

namespace Utf8

/-- What stands in for bytes that are not UTF-8. -/
def replacement : Char := Char.ofNat 0xFFFD

/-- A byte that continues a sequence. -/
def IsContinuation (byte : Nat) : Prop := 0x80 ≤ byte ∧ byte < 0xC0

instance (byte : Nat) : Decidable (IsContinuation byte) := inferInstanceAs (Decidable (_ ∧ _))

/-- A byte that may follow the first byte of a sequence of three or four: the bounds leave
out overlong forms, surrogates and what is past U+10FFFF. -/
def IsSecond (lead byte : Nat) : Prop :=
  (if lead = 0xE0 then 0xA0 else if lead = 0xF0 then 0x90 else 0x80) ≤ byte ∧
    byte < if lead = 0xED then 0xA0 else if lead = 0xF4 then 0x90 else 0xC0

instance (lead byte : Nat) : Decidable (IsSecond lead byte) := inferInstanceAs (Decidable (_ ∧ _))

/-- The first character of non-empty bytes, and how many bytes it took.  Past the end
stands a zero, which continues no sequence. -/
def decodeOne (bytes : List UInt8) : Char × Nat :=
  let byte := fun i => (bytes.getD i 0).toNat
  let lead := byte 0
  if lead < 0x80 then (Char.ofNat lead, 1)
  else if 0xC2 ≤ lead ∧ lead < 0xE0 then
    if IsContinuation (byte 1) then (Char.ofNat ((lead - 0xC0) * 0x40 + (byte 1 - 0x80)), 2)
    else (replacement, 1)
  else if 0xE0 ≤ lead ∧ lead < 0xF0 then
    if ¬ IsSecond lead (byte 1) then (replacement, 1)
    else if ¬ IsContinuation (byte 2) then (replacement, 2)
    else (Char.ofNat ((lead - 0xE0) * 0x1000 + (byte 1 - 0x80) * 0x40 + (byte 2 - 0x80)), 3)
  else if 0xF0 ≤ lead ∧ lead < 0xF5 then
    if ¬ IsSecond lead (byte 1) then (replacement, 1)
    else if ¬ IsContinuation (byte 2) then (replacement, 2)
    else if ¬ IsContinuation (byte 3) then (replacement, 3)
    else
      (Char.ofNat ((lead - 0xF0) * 0x40000 + (byte 1 - 0x80) * 0x1000 + (byte 2 - 0x80) * 0x40 +
        (byte 3 - 0x80)), 4)
  else (replacement, 1)

/-- The characters of the bytes; each takes at least one of them. -/
def decodeFrom : Nat → List UInt8 → List Char
  | 0, _ => []
  | _ + 1, [] => []
  | fuel + 1, byte :: bytes =>
      let (c, taken) := decodeOne (byte :: bytes)
      c :: decodeFrom fuel ((byte :: bytes).drop taken)

/-- Text from bytes that may not be UTF-8. -/
def fromUtf8Lossy (bytes : List UInt8) : String :=
  String.ofList (decodeFrom bytes.length bytes)

/-- The bytes of a text. -/
def asBytes (text : String) : List UInt8 :=
  text.toList.flatMap String.utf8EncodeChar

example : fromUtf8Lossy [0x61, 0xC3, 0xA9, 0xE2, 0x82, 0x62, 0xED, 0xA0, 0x80] =
    String.ofList ['a', Char.ofNat 0xE9, replacement, 'b', replacement, replacement, replacement] := by
  decide +kernel

/-! ## ASCII -/

theorem decodeFrom_ascii {bytes : List UInt8} (ascii : ∀ byte ∈ bytes, byte.toNat < 0x80) :
    decodeFrom bytes.length bytes = bytes.map fun byte => Char.ofNat byte.toNat := by
  induction bytes with
  | nil => rfl
  | cons byte bytes ih =>
      have small := ascii byte (by simp)
      have one : decodeOne (byte :: bytes) = (Char.ofNat byte.toNat, 1) := by
        unfold decodeOne
        simp only [List.getD_cons_zero]
        rw [if_pos small]
      rw [List.length_cons, decodeFrom, one]
      simp only [List.drop_one, List.tail_cons]
      rw [ih fun other member => ascii other (by simp [member])]
      rfl

theorem utf8EncodeChar_ascii {byte : UInt8} (small : byte.toNat < 0x80) :
    String.utf8EncodeChar (Char.ofNat byte.toNat) = [byte] := by
  have all : ∀ n : Fin 128, String.utf8EncodeChar (Char.ofNat n.val) = [UInt8.ofNat n.val] := by
    decide +kernel
  rw [all ⟨byte.toNat, small⟩, UInt8.ofNat_toNat]

/-- ASCII text keeps its bytes. -/
theorem asBytes_fromUtf8Lossy {bytes : List UInt8} (ascii : ∀ byte ∈ bytes, byte.toNat < 0x80) :
    asBytes (fromUtf8Lossy bytes) = bytes := by
  rw [asBytes, fromUtf8Lossy, String.toList_ofList, decodeFrom_ascii ascii, List.flatMap_map]
  induction bytes with
  | nil => rfl
  | cons byte bytes ih =>
      rw [List.flatMap_cons, utf8EncodeChar_ascii (ascii byte (by simp)),
        ih fun other member => ascii other (by simp [member])]
      rfl

/-! ## Text and its bytes -/

/-- The bounds of a second byte, lead by lead. -/
theorem isSecond_of_bounds {lead byte : Nat} (continues : IsContinuation byte)
    (overlong3 : lead = 0xE0 → 0xA0 ≤ byte) (overlong4 : lead = 0xF0 → 0x90 ≤ byte)
    (surrogate : lead = 0xED → byte < 0xA0) (past : lead = 0xF4 → byte < 0x90) :
    IsSecond lead byte := by
  obtain ⟨least, most⟩ := continues
  constructor
  · split
    next own => exact overlong3 own
    next =>
      split
      next own => exact overlong4 own
      next => exact least
  · split
    next own => exact surrogate own
    next =>
      split
      next own => exact past own
      next => exact most

/-- A character is decoded from its own bytes. -/
theorem decodeOne_utf8EncodeChar (c : Char) (rest : List UInt8) :
    decodeOne (String.utf8EncodeChar c ++ rest) = (c, (String.utf8EncodeChar c).length) := by
  have own : Char.ofNat c.toNat = c := Char.ofNat_toNat c
  have valid : c.toNat < 0xD800 ∨ 0xDFFF < c.toNat ∧ c.toNat < 0x110000 := c.valid
  have byte : ∀ n < 256, (UInt8.ofNat n).toNat = n := fun n small =>
    UInt8.toNat_ofNat_of_lt' small
  unfold String.utf8EncodeChar
  change c.toNat < _ ∨ _ at valid
  generalize codeEq : c.val.toNat = code
  change c.toNat = code at codeEq
  rw [codeEq] at own valid
  dsimp only
  by_cases one : code ≤ 0x7f
  · rw [if_pos one]
    unfold decodeOne
    simp only [List.cons_append, List.nil_append, List.getD_cons_zero, byte code (by omega)]
    rw [if_pos (by omega), own]
    rfl
  rw [if_neg one]
  by_cases two : code ≤ 0x7ff
  · rw [if_pos two]
    unfold decodeOne IsContinuation
    simp only [List.cons_append, List.nil_append, List.getD_cons_zero, List.getD_cons_succ,
      byte (code / 64 % 0x20 + 0xc0) (by omega), byte (code % 0x40 + 0x80) (by omega)]
    rw [if_neg (by omega), if_pos (by omega), if_pos (by omega)]
    have joined : (code / 64 % 0x20 + 0xc0 - 0xC0) * 0x40 + (code % 0x40 + 0x80 - 0x80) = code := by
      omega
    rw [joined, own]
    rfl
  rw [if_neg two]
  by_cases three : code ≤ 0xffff
  · rw [if_pos three]
    have second : IsSecond (code / 4096 % 0x10 + 0xe0) (code / 64 % 0x40 + 0x80) :=
      isSecond_of_bounds ⟨by omega, by omega⟩ (by omega) (by omega) (by omega) (by omega)
    unfold decodeOne IsContinuation
    simp only [List.cons_append, List.nil_append, List.getD_cons_zero, List.getD_cons_succ,
      byte (code / 4096 % 0x10 + 0xe0) (by omega), byte (code / 64 % 0x40 + 0x80) (by omega),
      byte (code % 0x40 + 0x80) (by omega)]
    rw [if_neg (by omega), if_neg (by omega), if_pos (by omega), if_neg (not_not.mpr second),
      if_neg (by omega)]
    have joined : (code / 4096 % 0x10 + 0xe0 - 0xE0) * 0x1000 +
        (code / 64 % 0x40 + 0x80 - 0x80) * 0x40 + (code % 0x40 + 0x80 - 0x80) = code := by
      omega
    rw [joined, own]
    rfl
  · rw [if_neg three]
    have second : IsSecond (code / 262144 % 0x08 + 0xf0) (code / 4096 % 0x40 + 0x80) :=
      isSecond_of_bounds ⟨by omega, by omega⟩ (by omega) (by omega) (by omega) (by omega)
    unfold decodeOne IsContinuation
    simp only [List.cons_append, List.nil_append, List.getD_cons_zero, List.getD_cons_succ,
      byte (code / 262144 % 0x08 + 0xf0) (by omega), byte (code / 4096 % 0x40 + 0x80) (by omega),
      byte (code / 64 % 0x40 + 0x80) (by omega), byte (code % 0x40 + 0x80) (by omega)]
    rw [if_neg (by omega), if_neg (by omega), if_neg (by omega), if_pos (by omega),
      if_neg (not_not.mpr second), if_neg (by omega), if_neg (by omega)]
    have joined : (code / 262144 % 0x08 + 0xf0 - 0xF0) * 0x40000 +
        (code / 4096 % 0x40 + 0x80 - 0x80) * 0x1000 + (code / 64 % 0x40 + 0x80 - 0x80) * 0x40 +
          (code % 0x40 + 0x80 - 0x80) = code := by
      omega
    rw [joined, own]
    rfl

/-- Decoding undoes encoding, character by character. -/
theorem decodeFrom_flatMap (text : List Char) {fuel : Nat}
    (enough : (text.flatMap String.utf8EncodeChar).length ≤ fuel) :
    decodeFrom fuel (text.flatMap String.utf8EncodeChar) = text := by
  induction text generalizing fuel with
  | nil =>
      cases fuel with
      | zero => rfl
      | succ fuel => rfl
  | cons c text ih =>
      rw [List.flatMap_cons, List.length_append] at enough
      have one := decodeOne_utf8EncodeChar c (text.flatMap String.utf8EncodeChar)
      rw [List.flatMap_cons]
      cases bytes : String.utf8EncodeChar c with
      | nil => exact absurd bytes String.utf8EncodeChar_ne_nil
      | cons byte others =>
          rw [bytes] at one enough
          obtain ⟨fuel, rfl⟩ : ∃ rest, fuel = rest + 1 := ⟨fuel - 1, by
            rw [List.length_cons] at enough
            omega⟩
          rw [List.cons_append] at one ⊢
          rw [decodeFrom, one]
          dsimp only
          rw [← List.cons_append, List.drop_left' rfl, ih]
          rw [List.length_cons] at enough
          omega

/-- Text is decoded from its own bytes. -/
theorem fromUtf8Lossy_asBytes (text : String) : fromUtf8Lossy (asBytes text) = text := by
  rw [fromUtf8Lossy, asBytes, decodeFrom_flatMap _ (Nat.le_refl _), String.ofList_toList]

end Utf8
