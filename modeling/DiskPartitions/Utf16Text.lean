import Mathlib.Algebra.GroupWithZero.Nat
import Mathlib.Data.Nat.Find
import Mathlib.Data.List.Basic
import Mathlib.Order.Nat

/-!
# UTF-16 text in bounded fields

Characters as one or two 16-bit code units, the lossy decoding that replaces
an unpaired surrogate and otherwise never fails, and the longest run of whole
characters that fits a field of a given number of units.
-/

namespace Utf16

/-- How many code units a character takes. -/
def unitCount (c : Char) : Nat := if c.toNat < 0x10000 then 1 else 2

/-- The code units of a character: itself, or a surrogate pair. -/
def units (c : Char) : List Nat :=
  if c.toNat < 0x10000 then [c.toNat]
  else [0xD800 + (c.toNat - 0x10000) / 0x400, 0xDC00 + (c.toNat - 0x10000) % 0x400]

/-- The first half of a surrogate pair. -/
def IsHigh (unit : Nat) : Prop := 0xD800 ≤ unit ∧ unit < 0xDC00

/-- The second half of a surrogate pair. -/
def IsLow (unit : Nat) : Prop := 0xDC00 ≤ unit ∧ unit < 0xE000

instance (unit : Nat) : Decidable (IsHigh unit) := inferInstanceAs (Decidable (_ ∧ _))

instance (unit : Nat) : Decidable (IsLow unit) := inferInstanceAs (Decidable (_ ∧ _))

/-- A unit read on its own: U+FFFD when it is half of a pair. -/
def decodeUnit (unit : Nat) : Char :=
  if IsHigh unit ∨ IsLow unit then Char.ofNat 0xFFFD else Char.ofNat unit

/-- Decode code units, replacing each unpaired surrogate by U+FFFD. -/
def decodeLossy : List Nat → List Char
  | [] => []
  | [unit] => [decodeUnit unit]
  | first :: second :: rest =>
      if IsHigh first ∧ IsLow second then
        Char.ofNat (0x10000 + (first - 0xD800) * 0x400 + (second - 0xDC00)) ::
          decodeLossy rest
      else decodeUnit first :: decodeLossy (second :: rest)

theorem toNat_lt_or_gt_surrogates (c : Char) :
    c.toNat < 0xD800 ∨ 0xDFFF < c.toNat ∧ c.toNat < 0x110000 :=
  c.valid

@[simp]
theorem length_units (c : Char) : (units c).length = unitCount c := by
  unfold units unitCount
  split <;> rfl

theorem unitCount_pos (c : Char) : 0 < unitCount c := by
  unfold unitCount
  split <;> omega

theorem units_lt {c : Char} {unit : Nat} (member : unit ∈ units c) : unit < 0x10000 := by
  have valid := toNat_lt_or_gt_surrogates c
  unfold units at member
  split at member
  · simp only [List.mem_singleton] at member
    omega
  · simp only [List.mem_cons, List.not_mem_nil, or_false] at member
    omega

/-- Only U+0000 has a zero code unit. -/
theorem zero_mem_units {c : Char} : 0 ∈ units c ↔ c = Char.ofNat 0 := by
  have valid := toNat_lt_or_gt_surrogates c
  unfold units
  constructor
  · intro member
    split at member
    · simp only [List.mem_singleton] at member
      rw [member, Char.ofNat_toNat]
    · simp only [List.mem_cons, List.not_mem_nil, or_false] at member
      omega
  · rintro rfl
    decide

/-- Decoding gives a character back from its units, whatever follows. -/
theorem decodeLossy_units_append (c : Char) (rest : List Nat) :
    decodeLossy (units c ++ rest) = c :: decodeLossy rest := by
  have valid := toNat_lt_or_gt_surrogates c
  unfold units
  split
  · have single : decodeUnit c.toNat = c := by
      rw [decodeUnit, if_neg (by unfold IsHigh IsLow; omega), Char.ofNat_toNat]
    cases rest with
    | nil => simp [decodeLossy, single]
    | cons next rest =>
        have unpaired : ¬ (IsHigh c.toNat ∧ IsLow next) := by
          unfold IsHigh
          omega
        simp only [List.singleton_append, decodeLossy, if_neg unpaired, single]
  · have paired : IsHigh (0xD800 + (c.toNat - 0x10000) / 0x400) ∧
        IsLow (0xDC00 + (c.toNat - 0x10000) % 0x400) := by
      unfold IsHigh IsLow
      omega
    have scalar : 0x10000 + (0xD800 + (c.toNat - 0x10000) / 0x400 - 0xD800) * 0x400 +
        (0xDC00 + (c.toNat - 0x10000) % 0x400 - 0xDC00) = c.toNat := by omega
    simp only [List.cons_append, List.nil_append, decodeLossy, if_pos paired, scalar,
      Char.ofNat_toNat]

/-- Lossy decoding loses nothing of what was encoded from characters. -/
theorem decodeLossy_flatMap_units (text : List Char) :
    decodeLossy (text.flatMap units) = text := by
  induction text with
  | nil => rfl
  | cons c text ih => rw [List.flatMap_cons, decodeLossy_units_append, ih]

/-- Code units a text takes. -/
def unitLength (text : List Char) : Nat := (text.map unitCount).sum

@[simp]
theorem unitLength_nil : unitLength [] = 0 := rfl

@[simp]
theorem unitLength_cons (c : Char) (text : List Char) :
    unitLength (c :: text) = unitCount c + unitLength text := by
  simp [unitLength]

@[simp]
theorem length_flatMap_units (text : List Char) :
    (text.flatMap units).length = unitLength text := by
  induction text with
  | nil => rfl
  | cons c text ih => rw [List.flatMap_cons, List.length_append, ih, length_units,
      unitLength_cons]

/-- The longest prefix of whole characters that fits in `room` code units. -/
def longestFitting (room : Nat) (text : List Char) : List Char :=
  text.take (Nat.findGreatest (fun count => unitLength (text.take count) ≤ room) text.length)

/-- Take characters one by one until the next one does not fit. -/
def greedyFitting : Nat → List Char → List Char
  | _, [] => []
  | room, c :: text =>
      if unitCount c ≤ room then c :: greedyFitting (room - unitCount c) text else []

theorem unitLength_greedyFitting (room : Nat) (text : List Char) :
    unitLength (greedyFitting room text) ≤ room := by
  induction text generalizing room with
  | nil => simp [greedyFitting]
  | cons c text ih =>
      rw [greedyFitting]
      split
      · have rest := ih (room - unitCount c)
        rw [unitLength_cons]
        omega
      · simp

theorem greedyFitting_eq_take (room : Nat) (text : List Char) :
    greedyFitting room text = text.take (greedyFitting room text).length := by
  induction text generalizing room with
  | nil => simp [greedyFitting]
  | cons c text ih =>
      rw [greedyFitting]
      split
      · rw [List.length_cons, List.take_succ_cons, ← ih]
      · simp

/-- No prefix longer than the greedy one fits. -/
theorem length_le_greedyFitting {room count : Nat} {text : List Char}
    (bound : count ≤ text.length) (fits : unitLength (text.take count) ≤ room) :
    count ≤ (greedyFitting room text).length := by
  induction text generalizing room count with
  | nil => simpa [greedyFitting] using bound
  | cons c text ih =>
      cases count with
      | zero => omega
      | succ count =>
          rw [List.take_succ_cons, unitLength_cons] at fits
          rw [greedyFitting, if_pos (by omega), List.length_cons]
          have restFits : unitLength (text.take count) ≤ room - unitCount c := by omega
          have shorter := ih (by simpa using bound) restFits
          omega

/-- Stopping at the first character that does not fit finds the longest fitting
prefix, since every character takes at least one unit. -/
theorem longestFitting_eq_greedyFitting (room : Nat) (text : List Char) :
    longestFitting room text = greedyFitting room text := by
  have greedyBound : (greedyFitting room text).length ≤ text.length := by
    rw [greedyFitting_eq_take]
    exact List.length_take_le' _ _
  have greedyFits : unitLength (text.take (greedyFitting room text).length) ≤ room := by
    rw [← greedyFitting_eq_take]
    exact unitLength_greedyFitting room text
  have greatest : Nat.findGreatest (fun count => unitLength (text.take count) ≤ room)
      text.length = (greedyFitting room text).length := by
    apply le_antisymm
    · apply length_le_greedyFitting (Nat.findGreatest_le _)
      exact Nat.findGreatest_spec (P := fun count => unitLength (text.take count) ≤ room)
        (Nat.zero_le _) (by simp)
    · exact Nat.le_findGreatest greedyBound greedyFits
  rw [longestFitting, greatest, ← greedyFitting_eq_take]

/-- A text that fits is kept whole. -/
theorem greedyFitting_of_le {room : Nat} {text : List Char} (fits : unitLength text ≤ room) :
    greedyFitting room text = text := by
  induction text generalizing room with
  | nil => rfl
  | cons c text ih =>
      rw [unitLength_cons] at fits
      rw [greedyFitting, if_pos (by omega), ih (by omega)]

/-! ## Texts that were decoded -/

theorem toNat_ofNat {value : Nat} (valid : value.isValidChar) :
    (Char.ofNat value).toNat = value := by
  unfold Char.ofNat
  rw [dif_pos valid]
  rfl

theorem toNat_decodeUnit {unit : Nat} (bounded : unit < 0x10000) :
    (decodeUnit unit).toNat = if IsHigh unit ∨ IsLow unit then 0xFFFD else unit := by
  unfold decodeUnit
  split
  · rfl
  next single =>
    unfold IsHigh IsLow at single
    exact toNat_ofNat (by unfold Nat.isValidChar; omega)

/-- A unit on its own takes one unit again. -/
theorem unitCount_decodeUnit {unit : Nat} (bounded : unit < 0x10000) :
    unitCount (decodeUnit unit) = 1 := by
  unfold unitCount
  rw [toNat_decodeUnit bounded, if_pos]
  split <;> omega

theorem decodeUnit_ne_zero {unit : Nat} (bounded : unit < 0x10000) (nonzero : unit ≠ 0) :
    decodeUnit unit ≠ Char.ofNat 0 := by
  intro same
  have value := congrArg Char.toNat same
  rw [toNat_decodeUnit bounded] at value
  change _ = 0 at value
  split at value <;> omega

/-- A pair decodes to a character that is not U+0000. -/
theorem decodePair_ne_zero {first second : Nat} (paired : IsHigh first ∧ IsLow second) :
    Char.ofNat (0x10000 + (first - 0xD800) * 0x400 + (second - 0xDC00)) ≠ Char.ofNat 0 := by
  intro same
  have value := congrArg Char.toNat same
  obtain ⟨⟨_, _⟩, _, _⟩ := paired
  rw [toNat_ofNat (by unfold Nat.isValidChar; omega)] at value
  change _ = 0 at value
  omega

/-- Decoding never needs more units than it was given, and makes no U+0000. -/
theorem decodeLossy_fits {units : List Nat} (bounded : ∀ unit ∈ units, unit < 0x10000) :
    unitLength (decodeLossy units) ≤ units.length ∧
      ((∀ unit ∈ units, unit ≠ 0) → ∀ c ∈ decodeLossy units, c ≠ Char.ofNat 0) := by
  fun_induction decodeLossy units with
  | case1 => simp
  | case2 unit =>
      have small := bounded unit (by simp)
      refine ⟨by simp [unitCount_decodeUnit small], fun nonzero c member => ?_⟩
      rw [List.mem_singleton.mp member]
      exact decodeUnit_ne_zero small (nonzero unit (by simp))
  | case3 first second rest paired ih =>
      obtain ⟨shorter, clear⟩ := ih fun unit member => bounded unit (by simp [member])
      refine ⟨?_, fun nonzero c member => ?_⟩
      · have count : ∀ c, unitCount c ≤ 2 := by
          intro c
          unfold unitCount
          split <;> omega
        have one := count (Char.ofNat (0x10000 + (first - 0xD800) * 0x400 + (second - 0xDC00)))
        rw [unitLength_cons, List.length_cons, List.length_cons]
        omega
      · rcases List.mem_cons.mp member with same | later
        · rw [same]
          exact decodePair_ne_zero paired
        · exact clear (fun unit present => nonzero unit (by simp [present])) c later
  | case4 first second rest unpaired ih =>
      have small := bounded first (by simp)
      obtain ⟨shorter, clear⟩ := ih fun unit member => bounded unit (by simp [member])
      refine ⟨?_, fun nonzero c member => ?_⟩
      · rw [unitLength_cons, unitCount_decodeUnit small, List.length_cons]
        omega
      · rcases List.mem_cons.mp member with rfl | later
        · exact decodeUnit_ne_zero small (nonzero first (by simp))
        · exact clear (fun unit present => nonzero unit (by simp [present])) c later

theorem decodeLossy_eq_nil {units : List Nat} : decodeLossy units = [] ↔ units = [] := by
  fun_cases decodeLossy units <;> simp

end Utf16
