import Mathlib.Algebra.Group.Nat.Defs
import Mathlib.Data.Nat.Basic

/-!
# Checked and saturating 64-bit arithmetic

The arithmetic of `UInt64` wraps.  These are the operations a program uses when
wrapping would be wrong, each with its value as a natural number, and the rules
that read the wrapping operations as exact ones below the word's range.
-/

namespace CheckedWords

/-- The sum, unless it leaves the word. -/
def checkedAdd (a b : UInt64) : Option UInt64 :=
  if a.toNat + b.toNat < 2 ^ 64 then some (a + b) else none

/-- The difference, unless it is negative. -/
def checkedSub (a b : UInt64) : Option UInt64 :=
  if b ≤ a then some (a - b) else none

/-- The product, unless it leaves the word. -/
def checkedMul (a b : UInt64) : Option UInt64 :=
  if a.toNat * b.toNat < 2 ^ 64 then some (a * b) else none

/-- The sum, or the largest word. -/
def saturatingAdd (a b : UInt64) : UInt64 := (checkedAdd a b).getD (0 - 1)

/-- The difference, or zero. -/
def saturatingSub (a b : UInt64) : UInt64 := (checkedSub a b).getD 0

/-- The quotient rounded up. -/
def divCeil (a b : UInt64) : UInt64 :=
  if 0 < a % b then a / b + 1 else a / b

theorem toNat_add_of_lt {a b : UInt64} (bounded : a.toNat + b.toNat < 2 ^ 64) :
    (a + b).toNat = a.toNat + b.toNat := by
  rw [UInt64.toNat_add, Nat.mod_eq_of_lt bounded]

theorem toNat_mul_of_lt {a b : UInt64} (bounded : a.toNat * b.toNat < 2 ^ 64) :
    (a * b).toNat = a.toNat * b.toNat := by
  rw [UInt64.toNat_mul, Nat.mod_eq_of_lt bounded]

theorem toNat_sub_of_le {a b : UInt64} (bounded : b.toNat ≤ a.toNat) :
    (a - b).toNat = a.toNat - b.toNat :=
  UInt64.toNat_sub_of_le a b bounded

theorem checkedAdd_eq_some {a b sum : UInt64} :
    checkedAdd a b = some sum ↔ sum.toNat = a.toNat + b.toNat := by
  unfold checkedAdd
  split
  next bounded =>
    rw [Option.some.injEq, ← UInt64.toNat_inj, toNat_add_of_lt bounded]
    exact eq_comm
  next overflow =>
    have := sum.toNat_lt
    simp only [reduceCtorEq, false_iff]
    omega

theorem checkedAdd_eq_none {a b : UInt64} :
    checkedAdd a b = none ↔ 2 ^ 64 ≤ a.toNat + b.toNat := by
  unfold checkedAdd
  split <;> simp <;> omega

theorem checkedMul_eq_some {a b product : UInt64} :
    checkedMul a b = some product ↔ product.toNat = a.toNat * b.toNat := by
  unfold checkedMul
  split
  next bounded =>
    rw [Option.some.injEq, ← UInt64.toNat_inj, toNat_mul_of_lt bounded]
    exact eq_comm
  next overflow =>
    have := product.toNat_lt
    simp only [reduceCtorEq, false_iff]
    omega

theorem checkedSub_eq_some {a b difference : UInt64} :
    checkedSub a b = some difference ↔ a.toNat = b.toNat + difference.toNat := by
  unfold checkedSub
  split
  next bounded =>
    rw [UInt64.le_iff_toNat_le] at bounded
    rw [Option.some.injEq, ← UInt64.toNat_inj, toNat_sub_of_le bounded]
    omega
  next negative =>
    rw [UInt64.le_iff_toNat_le] at negative
    simp only [reduceCtorEq, false_iff]
    omega

theorem toNat_saturatingAdd (a b : UInt64) :
    (saturatingAdd a b).toNat = min (a.toNat + b.toNat) (2 ^ 64 - 1) := by
  unfold saturatingAdd
  cases sum : checkedAdd a b with
  | none =>
      have overflow := checkedAdd_eq_none.mp sum
      have largest : ((none : Option UInt64).getD (0 - 1)).toNat = 2 ^ 64 - 1 := by decide
      omega
  | some value =>
      have exact := checkedAdd_eq_some.mp sum
      have := value.toNat_lt
      rw [Option.getD_some]
      omega

theorem toNat_saturatingSub (a b : UInt64) :
    (saturatingSub a b).toNat = a.toNat - b.toNat := by
  unfold saturatingSub
  cases difference : checkedSub a b with
  | none =>
      unfold checkedSub at difference
      split at difference
      · cases difference
      next negative =>
        rw [UInt64.le_iff_toNat_le] at negative
        have zero : ((none : Option UInt64).getD 0).toNat = 0 := by decide
        omega
  | some value =>
      have exact := checkedSub_eq_some.mp difference
      rw [Option.getD_some]
      omega

theorem toNat_divCeil {a b : UInt64} (positive : 0 < b.toNat) :
    (divCeil a b).toNat = (a.toNat + b.toNat - 1) / b.toNat := by
  have division := Nat.div_add_mod a.toNat b.toNat
  have remainder := Nat.mod_lt a.toNat positive
  have quotient := Nat.div_le_self a.toNat b.toNat
  have bound := a.toNat_lt
  unfold divCeil
  split
  next inexact =>
    rw [UInt64.lt_iff_toNat_lt, UInt64.toNat_mod] at inexact
    have strict : a.toNat / b.toNat + 1 < 2 ^ 64 := by
      by_contra large
      have same : a.toNat / b.toNat = a.toNat := by omega
      rw [same] at division
      have product : a.toNat ≤ b.toNat * a.toNat := Nat.le_mul_of_pos_left _ positive
      change 0 < a.toNat % b.toNat at inexact
      omega
    have one : (1 : UInt64).toNat = 1 := rfl
    rw [toNat_add_of_lt (by rw [UInt64.toNat_div, one]; exact strict), UInt64.toNat_div, one]
    change 0 < a.toNat % b.toNat at inexact
    have split : a.toNat + b.toNat - 1 =
        b.toNat * (a.toNat / b.toNat + 1) + (a.toNat % b.toNat - 1) := by
      rw [Nat.mul_succ]
      omega
    have small : (a.toNat % b.toNat - 1) / b.toNat = 0 := Nat.div_eq_of_lt (by omega)
    rw [split, Nat.mul_add_div positive, small, Nat.add_zero]
  next whole =>
    rw [UInt64.lt_iff_toNat_lt, UInt64.toNat_mod] at whole
    change ¬ 0 < a.toNat % b.toNat at whole
    have split : a.toNat + b.toNat - 1 = b.toNat * (a.toNat / b.toNat) + (b.toNat - 1) := by
      omega
    have small : (b.toNat - 1) / b.toNat = 0 := Nat.div_eq_of_lt (by omega)
    rw [UInt64.toNat_div, split, Nat.mul_add_div positive, small, Nat.add_zero]

end CheckedWords
