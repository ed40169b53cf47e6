import Mathlib.Algebra.BigOperators.Ring.Finset
import Mathlib.Algebra.CharP.Two
import Mathlib.Tactic.FieldSimp
import Mathlib.Tactic.Ring

/-!
# Recovering lost items from two syndromes

A row of items over a field of characteristic two carries their sum and, with a
weight for each item, their weighted sum.  Adding the items that are left to
such a sum leaves the sum of the lost ones, and that determines one lost item,
or two whose weights differ.
-/

namespace ErasureCodes

open Finset

variable {ι F : Type*} [Field F] [CharP F 2]

/-- Adding back the terms that are left leaves the terms that are lost. -/
theorem sum_add_sum_kept (row : Finset ι) (kept : ι → Bool) (term : ι → F) :
    (∑ i ∈ row, term i) + (∑ i ∈ row, if kept i then term i else 0) =
      ∑ i ∈ row with kept i = false, term i := by
  rw [← sum_add_distrib, sum_filter]
  apply sum_congr rfl
  intro i _
  cases kept i with
  | true => simp [CharTwo.add_self_eq_zero]
  | false => simp

/-- Two lost items leave a remainder in each sum.  The first item, when the
ratio of the second's weight to its own is not one. -/
theorem recover_two {weight ratio first second : F} (nonzero : weight ≠ 0)
    (distinct : ratio + 1 ≠ 0) :
    ratio * (ratio + 1)⁻¹ * (first + second) +
        weight⁻¹ * (ratio + 1)⁻¹ * (weight * first + ratio * weight * second) = first := by
  have combined : ratio * (first + second) + (first + ratio * second) =
      (ratio + 1) * first := by
    have doubled : ratio * second + ratio * second = 0 := CharTwo.add_self_eq_zero _
    calc ratio * (first + second) + (first + ratio * second)
        = (ratio + 1) * first + (ratio * second + ratio * second) := by ring
      _ = (ratio + 1) * first := by rw [doubled, add_zero]
  calc ratio * (ratio + 1)⁻¹ * (first + second) +
        weight⁻¹ * (ratio + 1)⁻¹ * (weight * first + ratio * weight * second)
      = (ratio + 1)⁻¹ * (ratio * (first + second) + (first + ratio * second)) := by
        field_simp
    _ = first := by rw [combined, inv_mul_cancel_left₀ distinct]

end ErasureCodes
