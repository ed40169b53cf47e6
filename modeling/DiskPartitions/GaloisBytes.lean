import DiskPartitions.GeneratedFields
import Mathlib.Algebra.CharP.Two
import Mathlib.Data.Fintype.Card
import Mathlib.Data.Nat.Bitwise
import Mathlib.Dynamics.PeriodicPts.Defs
import Mathlib.Order.Interval.Finset.Nat

/-!
# Bytes as GF(2^8)

RAID6 keeps a second syndrome over GF(2^8) with the polynomial
`x^8 + x^4 + x^3 + x^2 + 1`, computed through tables of powers of two and of
logarithms.  Multiplying by two shifts the byte and folds the bit that falls
out back in; its powers carry one through all 255 non-zero bytes.  The bytes
are therefore a field, and the table arithmetic is the arithmetic of that
field.
-/

namespace DiskPartitions

open GeneratedFields

/-! ## The tables -/

/-- The tables of `gf_tables` while they are filled, with the next power. -/
structure GfTables where
  exp : List UInt8
  log : List UInt8
  x : UInt16

/-- The next power of two, reduced by the field's polynomial. -/
def doubleWord (x : UInt16) : UInt16 :=
  let shifted := x <<< 1
  if shifted &&& 0x100 ≠ 0 then shifted ^^^ 0x11d else shifted

def GfTables.fill (tables : GfTables) (i : Nat) : GfTables where
  exp := tables.exp.set i tables.x.toUInt8
  log := tables.log.set tables.x.toNat (UInt8.ofNat i)
  x := doubleWord tables.x

def emptyTables : GfTables where
  exp := List.replicate 256 0
  log := List.replicate 256 0
  x := 1

def gfTables : List UInt8 × List UInt8 :=
  let filled := (List.range 255).foldl GfTables.fill emptyTables
  (filled.exp.set 255 (filled.exp.getD 0 0), filled.log)

def gfExp : List UInt8 := gfTables.1

def gfLog : List UInt8 := gfTables.2

/-- Two to any power. -/
def gfPow2 (e : Int) : UInt8 := gfExp.getD (e % 255).toNat 0

def gfMul (a b : UInt8) : UInt8 :=
  if a = 0 ∨ b = 0 then 0
  else gfExp.getD (((gfLog.getD a.toNat 0).toNat + (gfLog.getD b.toNat 0).toNat) % 255) 0

def gfInv (a : UInt8) : UInt8 :=
  gfExp.getD ((255 - (gfLog.getD a.toNat 0).toNat) % 255) 0

/-! ## Multiplication by two -/

/-- A byte times two in the field. -/
def double (b : UInt8) : UInt8 :=
  (b <<< 1) ^^^ (if b &&& 0x80 = 0 then 0 else 0x1d)

theorem high_bit (b : UInt8) : b &&& 0x80 = 0 ∨ b &&& 0x80 = 0x80 := by
  have bit : (b &&& 0x80).toNat = (b.toNat.testBit 7).toNat * 2 ^ 7 := Nat.and_two_pow b.toNat 7
  cases set : b.toNat.testBit 7 with
  | false =>
      left
      apply UInt8.toNat_inj.mp
      rw [bit, set]
      rfl
  | true =>
      right
      apply UInt8.toNat_inj.mp
      rw [bit, set]
      rfl

theorem xor_xor_xor_comm (a b c d : UInt8) :
    (a ^^^ b) ^^^ (c ^^^ d) = (a ^^^ c) ^^^ (b ^^^ d) := by
  rw [UInt8.xor_assoc, ← UInt8.xor_assoc b, UInt8.xor_comm b, UInt8.xor_assoc c,
    ← UInt8.xor_assoc]

theorem double_xor (a b : UInt8) : double (a ^^^ b) = double a ^^^ double b := by
  have shifted : (a ^^^ b) <<< 1 = (a <<< 1) ^^^ (b <<< 1) := UInt8.shiftLeft_xor
  have masked : (a ^^^ b) &&& 0x80 = (a &&& 0x80) ^^^ (b &&& 0x80) := by
    apply UInt8.toBitVec_inj.mp
    apply BitVec.eq_of_getLsbD_eq
    intro i _
    simp [Bool.and_xor_distrib_right]
  unfold double
  rw [shifted, masked, xor_xor_xor_comm]
  congr 1
  obtain first | first := high_bit a <;> obtain second | second := high_bit b
  all_goals
    rw [first, second]
    decide

theorem doubleWord_toUInt16 (b : UInt8) : doubleWord b.toUInt16 = (double b).toUInt16 := by
  have cases : ∀ n < 256,
      doubleWord (UInt8.ofNat n).toUInt16 = (double (UInt8.ofNat n)).toUInt16 := by
    decide +kernel
  simpa using cases b.toNat b.toNat_lt

theorem minimalPeriod_double : Function.minimalPeriod double 1 = 255 := by
  have whole : double^[255] 1 = 1 := by decide +kernel
  have divides : Function.minimalPeriod double 1 ∣ 255 :=
    Function.IsPeriodicPt.minimalPeriod_dvd whole
  have bounded := Nat.le_of_dvd (by decide) divides
  by_contra shorter
  -- a proper divisor of 255 divides 85, 51 or 15, and none of these is a period
  have proper : ∀ m < 255, m ∣ 255 → m ∣ 85 ∨ m ∣ 51 ∨ m ∣ 15 := by decide +kernel
  have not85 : double^[85] 1 ≠ 1 := by decide +kernel
  have not51 : double^[51] 1 ≠ 1 := by decide +kernel
  have not15 : double^[15] 1 ≠ 1 := by decide +kernel
  obtain part | part | part := proper _ (by omega) divides
  · exact not85 (Function.isPeriodicPt_iff_minimalPeriod_dvd.mpr part)
  · exact not51 (Function.isPeriodicPt_iff_minimalPeriod_dvd.mpr part)
  · exact not15 (Function.isPeriodicPt_iff_minimalPeriod_dvd.mpr part)

/-- The power of two that `e` doublings of one reach. -/
def powerByte (e : Nat) : UInt8 := double^[e] 1

theorem powerByte_injective {d e : Nat} (first : d < 255) (second : e < 255)
    (same : powerByte d = powerByte e) : d = e :=
  (Function.iterate_eq_iterate_iff_of_lt_minimalPeriod
    (first.trans_eq minimalPeriod_double.symm)
    (second.trans_eq minimalPeriod_double.symm)).mp same

theorem powerByte_255 : powerByte 255 = 1 := by
  have cycle : double^[Function.minimalPeriod double 1] 1 = 1 := Function.iterate_minimalPeriod
  rwa [minimalPeriod_double] at cycle

theorem iterate_double_zero (e : Nat) : double^[e] 0 = 0 :=
  Function.iterate_fixed (by decide) e

theorem powerByte_ne_zero {e : Nat} (bounded : e < 255) : powerByte e ≠ 0 := by
  intro vanishes
  have later : powerByte 255 = 0 := by
    have split : 255 = (255 - e) + e := by omega
    rw [split, powerByte, Function.iterate_add_apply]
    exact (congrArg _ vanishes).trans (iterate_double_zero _)
  rw [powerByte_255] at later
  cases later

/-- Every non-zero byte is a power of two: there are as many of one as of the
other, and the powers are distinct. -/
theorem exists_powerByte {b : UInt8} (nonzero : b ≠ 0) : ∃ e < 255, powerByte e = b := by
  have covered : (Finset.range 255).image (fun e => (powerByte e).toNat) = Finset.Ico 1 256 := by
    apply Finset.eq_of_subset_of_card_le
    · intro value member
      obtain ⟨e, bounded, rfl⟩ := Finset.mem_image.mp member
      have positive := powerByte_ne_zero (Finset.mem_range.mp bounded)
      rw [Ne, ← UInt8.toNat_inj] at positive
      have below := (powerByte e).toNat_lt
      exact Finset.mem_Ico.mpr ⟨Nat.one_le_iff_ne_zero.mpr positive, below⟩
    · rw [Finset.card_image_of_injOn, Finset.card_range, Nat.card_Ico]
      intro d first e second same
      exact powerByte_injective (Finset.mem_range.mp first) (Finset.mem_range.mp second)
        (UInt8.toNat_inj.mp same)
  have positive : b.toNat ≠ 0 := fun zero => nonzero (UInt8.toNat_inj.mp zero)
  have member : b.toNat ∈ Finset.Ico 1 256 :=
    Finset.mem_Ico.mpr ⟨Nat.one_le_iff_ne_zero.mpr positive, b.toNat_lt⟩
  rw [← covered] at member
  obtain ⟨e, bounded, same⟩ := Finset.mem_image.mp member
  exact ⟨e, Finset.mem_range.mp bounded, UInt8.toNat_inj.mp same⟩

/-! ## What the tables hold -/

/-- The tables after their first `i` places were filled. -/
structure FilledTo (i : Nat) (tables : GfTables) : Prop where
  length_exp : tables.exp.length = 256
  length_log : tables.log.length = 256
  next : tables.x = (powerByte i).toUInt16
  exp : ∀ e < i, tables.exp.getD e 0 = powerByte e
  log : ∀ e < i, tables.log.getD (powerByte e).toNat 0 = UInt8.ofNat e

theorem filledTo_zero : FilledTo 0 emptyTables where
  length_exp := List.length_replicate
  length_log := List.length_replicate
  next := rfl
  exp := fun _ none => absurd none (Nat.not_lt_zero _)
  log := fun _ none => absurd none (Nat.not_lt_zero _)

theorem getD_set_self {items : List UInt8} {i : Nat} (bounded : i < items.length) (b : UInt8) :
    (items.set i b).getD i 0 = b := by
  rw [List.getD_eq_getElem?_getD, List.getElem?_set_self bounded, Option.getD_some]

theorem getD_set_ne {items : List UInt8} {i j : Nat} (apart : i ≠ j) (b : UInt8) :
    (items.set i b).getD j 0 = items.getD j 0 := by
  rw [List.getD_eq_getElem?_getD, List.getElem?_set_ne apart, ← List.getD_eq_getElem?_getD]

theorem filledTo_succ {i : Nat} {tables : GfTables} (bounded : i < 255)
    (filled : FilledTo i tables) : FilledTo (i + 1) (tables.fill i) := by
  have place : tables.x.toNat = (powerByte i).toNat := by
    rw [filled.next]
    exact UInt8.toNat_toUInt16 _
  have value : tables.x.toUInt8 = powerByte i := by rw [filled.next, UInt8.toUInt8_toUInt16]
  have below := (powerByte i).toNat_lt
  refine ⟨?_, ?_, ?_, ?_, ?_⟩
  · exact (List.length_set ..).trans filled.length_exp
  · exact (List.length_set ..).trans filled.length_log
  · change doubleWord tables.x = _
    rw [filled.next, doubleWord_toUInt16, powerByte, powerByte, Function.iterate_succ_apply']
  · intro e before
    change (tables.exp.set i tables.x.toUInt8).getD e 0 = _
    by_cases last : i = e
    · subst last
      rw [getD_set_self (by rw [filled.length_exp]; omega), value]
    · rw [getD_set_ne last, filled.exp e (by omega)]
  · intro e before
    change (tables.log.set tables.x.toNat (UInt8.ofNat i)).getD _ 0 = _
    rw [place]
    by_cases last : i = e
    · subst last
      rw [getD_set_self (by rw [filled.length_log]; omega)]
    · have apart : (powerByte i).toNat ≠ (powerByte e).toNat := by
        intro same
        exact last (powerByte_injective bounded (by omega) (UInt8.toNat_inj.mp same))
      rw [getD_set_ne apart, filled.log e (by omega)]

theorem filledTo_foldl {i : Nat} (bounded : i ≤ 255) :
    FilledTo i ((List.range i).foldl GfTables.fill emptyTables) := by
  induction i with
  | zero => exact filledTo_zero
  | succ i ih =>
      rw [List.range_succ, List.foldl_append]
      exact filledTo_succ (by omega) (ih (by omega))

theorem getD_gfExp {e : Nat} (bounded : e < 255) : gfExp.getD e 0 = powerByte e := by
  have filled := filledTo_foldl (i := 255) (by decide)
  simp only [gfExp, gfTables]
  rw [getD_set_ne (by omega), filled.exp e bounded]

theorem getD_gfLog {e : Nat} (bounded : e < 255) :
    (gfLog.getD (powerByte e).toNat 0).toNat = e := by
  have filled := filledTo_foldl (i := 255) (by decide)
  simp only [gfLog, gfTables]
  rw [filled.log e bounded]
  exact UInt8.toNat_ofNat_of_lt' (bounded.trans (by decide))

/-! ## The field -/

/-- A byte as an element of the field. -/
@[ext]
structure GaloisByte where
  byte : UInt8

namespace GaloisByte

instance : Zero GaloisByte := ⟨mk 0⟩

instance : Add GaloisByte := ⟨fun a b => mk (a.byte ^^^ b.byte)⟩

instance : Neg GaloisByte := ⟨fun a => a⟩

instance : AddCommGroup GaloisByte where
  add_assoc a b c := congrArg mk (UInt8.xor_assoc a.byte b.byte c.byte)
  zero_add a := congrArg mk UInt8.zero_xor
  add_zero a := congrArg mk UInt8.xor_zero
  add_comm a b := congrArg mk (UInt8.xor_comm a.byte b.byte)
  neg_add_cancel a := congrArg mk UInt8.xor_self
  nsmul := nsmulRec
  zsmul := zsmulRec

/-- The field's addition is the exclusive or of bytes. -/
theorem mk_xor (a b : UInt8) : mk (a ^^^ b) = mk a + mk b := rfl

theorem mk_zero : mk 0 = 0 := rfl

theorem mk_eq_zero {b : UInt8} : mk b = 0 ↔ b = 0 :=
  ⟨congrArg byte, congrArg mk⟩

def doubleHom : GaloisByte →+ GaloisByte where
  toFun a := mk (double a.byte)
  map_zero' := rfl
  map_add' a b := congrArg mk (double_xor a.byte b.byte)

theorem iterate_doubleHom (e : Nat) (b : UInt8) : doubleHom^[e] (mk b) = mk (double^[e] b) := by
  induction e generalizing b with
  | zero => rfl
  | succ e ih => exact ih (double b)

/-- Doubling generates the field. -/
def doubling : Generator GaloisByte where
  step := doubleHom
  one := mk 1
  order := 255
  one_ne_zero := fun zero => absurd (mk_eq_zero.mp zero) (by decide)
  cycle := (iterate_doubleHom 255 1).trans (congrArg mk powerByte_255)
  reaches := by
    intro v nonzero
    obtain ⟨e, bounded, reached⟩ := exists_powerByte (fun zero => nonzero (mk_eq_zero.mpr zero))
    exact ⟨e, bounded, (iterate_doubleHom e 1).trans (congrArg mk reached)⟩

noncomputable instance : Field GaloisByte := doubling.field

theorem mk_one : mk 1 = 1 := rfl

instance : CharP GaloisByte 2 :=
  CharTwo.of_one_ne_zero_of_two_eq_zero one_ne_zero
    ((one_add_one_eq_two (R := GaloisByte)).symm.trans (congrArg mk UInt8.xor_self))

/-- The generator `{02}`. -/
def two : GaloisByte := mk 2

theorem power_eq (e : Nat) : doubling.power e = mk (powerByte e) := iterate_doubleHom e 1

theorem two_pow (e : Nat) : two ^ e = mk (powerByte e) := by
  have powers : (mk (powerByte 1)) ^ e = doubling.power e := doubling.pow_power_one e
  rw [power_eq] at powers
  exact powers

theorem two_ne_zero' : two ≠ 0 := fun zero => absurd (mk_eq_zero.mp zero) (by decide)

theorem mk_double (b : UInt8) : mk (double b) = two * mk b :=
  (doubling.power_mul 1 (mk b)).symm

/-- Repeated doubling multiplies by a power of two. -/
theorem mk_iterate_double (e : Nat) (b : UInt8) : mk (double^[e] b) = two ^ e * mk b := by
  induction e with
  | zero => rw [Function.iterate_zero_apply, pow_zero, one_mul]
  | succ e ih => rw [Function.iterate_succ_apply', mk_double, ih, pow_succ', mul_assoc]

theorem two_zpow_mod (e : Int) : two ^ (e % 255) = two ^ e := by
  have cycle : two ^ (255 : Int) = 1 := by
    have powers := two_pow 255
    rw [powerByte_255] at powers
    exact_mod_cast powers
  conv_rhs => rw [← Int.emod_add_mul_ediv e 255]
  rw [zpow_add₀ two_ne_zero', zpow_mul, cycle, one_zpow, mul_one]

/-! ## The table arithmetic is the field's -/

theorem gfPow2_eq (e : Int) : gfPow2 e = powerByte (e % 255).toNat :=
  getD_gfExp (by omega)

theorem mk_gfPow2 (e : Int) : mk (gfPow2 e) = two ^ e := by
  rw [gfPow2_eq, ← two_pow, ← two_zpow_mod e, ← zpow_natCast, Int.toNat_of_nonneg (by omega)]

theorem mk_getD_gfExp_mod (e : Nat) : mk (gfExp.getD (e % 255) 0) = two ^ e := by
  rw [getD_gfExp (Nat.mod_lt _ (by decide)), ← power_eq]
  have cycles : doubling.power (e % 255) = doubling.power e := doubling.power_mod e
  rw [cycles, power_eq, two_pow]

theorem two_pow_log {b : UInt8} (nonzero : b ≠ 0) :
    two ^ (gfLog.getD b.toNat 0).toNat = mk b := by
  obtain ⟨e, bounded, rfl⟩ := exists_powerByte nonzero
  rw [getD_gfLog bounded, two_pow]

theorem mk_gfMul (a b : UInt8) : mk (gfMul a b) = mk a * mk b := by
  unfold gfMul
  split
  next zero =>
    obtain rfl | rfl := zero
    · rw [mk_zero, zero_mul]
    · rw [mk_zero, mul_zero]
  next nonzero =>
    rw [not_or] at nonzero
    rw [mk_getD_gfExp_mod, pow_add, two_pow_log nonzero.1, two_pow_log nonzero.2]

theorem mk_gfInv {a : UInt8} (nonzero : a ≠ 0) : mk (gfInv a) = (mk a)⁻¹ := by
  obtain ⟨e, bounded, rfl⟩ := exists_powerByte nonzero
  unfold gfInv
  rw [getD_gfLog bounded, mk_getD_gfExp_mod]
  apply eq_inv_of_mul_eq_one_left
  rw [← two_pow, ← pow_add, Nat.sub_add_cancel bounded.le, two_pow, powerByte_255, mk_one]

/-- Two powers of two agree when their exponents do modulo 255. -/
theorem gfPow2_eq_one {e : Int} : gfPow2 e = 1 ↔ e % 255 = 0 := by
  rw [gfPow2_eq]
  constructor
  · intro one
    have same : powerByte (e % 255).toNat = powerByte 0 := one
    have := powerByte_injective (by omega) (by decide) same
    omega
  · intro whole
    rw [whole]
    rfl

end GaloisByte

end DiskPartitions
