import Mathlib.Algebra.Field.Basic
import Mathlib.Algebra.Group.Hom.Defs
import Mathlib.Logic.Function.Iterate

/-!
# Fields generated by the powers of one map

A commutative group with an additive map whose powers carry one element through
every non-zero element is a field: the chosen element is one, and multiplying
by an element is applying the power of the map that reaches it.  Tables of
powers and logarithms compute in such a field, and this file says what they
compute.
-/

namespace GeneratedFields

/-- An additive map whose first `order` powers carry `one` through every
non-zero element and back. -/
structure Generator (V : Type*) [AddCommGroup V] where
  step : V →+ V
  one : V
  order : ℕ
  one_ne_zero : one ≠ 0
  cycle : step^[order] one = one
  reaches : ∀ v, v ≠ 0 → ∃ e < order, step^[e] one = v

namespace Generator

variable {V : Type*} [AddCommGroup V] (g : Generator V)

/-- The element the map reaches from one in `e` steps. -/
def power (e : ℕ) : V := g.step^[e] g.one

theorem power_zero : g.power 0 = g.one := rfl

theorem iterate_zero_element (e : ℕ) : g.step^[e] 0 = 0 := by
  induction e with
  | zero => rfl
  | succ e ih => rw [Function.iterate_succ_apply', ih, map_zero]

theorem iterate_add_element (e : ℕ) (v w : V) :
    g.step^[e] (v + w) = g.step^[e] v + g.step^[e] w := by
  induction e with
  | zero => rfl
  | succ e ih => simp only [Function.iterate_succ_apply', ih, map_add]

theorem iterate_power (d e : ℕ) : g.step^[d] (g.power e) = g.power (d + e) :=
  (Function.iterate_add_apply _ d e g.one).symm

/-- Applying the map is determined by what it does to one. -/
theorem iterate_congr {d e : ℕ} (same : g.power d = g.power e) (v : V) :
    g.step^[d] v = g.step^[e] v := by
  by_cases zero : v = 0
  · rw [zero, iterate_zero_element, iterate_zero_element]
  · obtain ⟨k, -, reached⟩ := g.reaches v zero
    have reached : g.power k = v := reached
    rw [← reached, iterate_power, iterate_power, Nat.add_comm d, Nat.add_comm e,
      ← iterate_power, ← iterate_power, same]

theorem power_add_order (e : ℕ) : g.power (e + g.order) = g.power e := by
  rw [← iterate_power, power, g.cycle, power]

theorem power_add_mul_order (e k : ℕ) : g.power (e + k * g.order) = g.power e := by
  induction k with
  | zero => rw [Nat.zero_mul, Nat.add_zero]
  | succ k ih => rw [Nat.succ_mul, ← Nat.add_assoc, power_add_order, ih]

/-- Powers repeat with the order. -/
theorem power_mod (e : ℕ) : g.power (e % g.order) = g.power e := by
  conv_rhs => rw [← Nat.mod_add_div e g.order, Nat.mul_comm, power_add_mul_order]

theorem power_ne_zero (e : ℕ) : g.power e ≠ 0 := by
  intro zero
  -- `e` whole cycles return to one, and pass through the power that vanished
  have cycles : g.power (0 + e * g.order) = g.one := by
    rw [power_add_mul_order, power_zero]
  have positive : 0 < g.order := by
    obtain ⟨k, below, -⟩ := g.reaches g.one g.one_ne_zero
    omega
  have split : 0 + e * g.order = (e * g.order - e) + e := by
    have : e ≤ e * g.order := Nat.le_mul_of_pos_right e positive
    omega
  apply g.one_ne_zero
  rw [← cycles, split, ← iterate_power, zero, iterate_zero_element]

/-- How many steps reach an element. -/
noncomputable def log (v : V) : ℕ :=
  haveI := Classical.propDecidable (v = 0)
  if zero : v = 0 then 0 else (g.reaches v zero).choose

theorem power_log {v : V} (nonzero : v ≠ 0) : g.power (g.log v) = v := by
  unfold log
  rw [dif_neg nonzero]
  exact (g.reaches v nonzero).choose_spec.2

theorem log_lt {v : V} (nonzero : v ≠ 0) : g.log v < g.order := by
  unfold log
  rw [dif_neg nonzero]
  exact (g.reaches v nonzero).choose_spec.1

/-- Multiplying by an element is applying the power of the map that reaches it. -/
noncomputable def mul (v w : V) : V :=
  haveI := Classical.propDecidable (v = 0)
  if v = 0 then 0 else g.step^[g.log v] w

/-- The element that completes the cycle. -/
noncomputable def inv (v : V) : V :=
  haveI := Classical.propDecidable (v = 0)
  if v = 0 then 0 else g.power (g.order - g.log v)

theorem zero_mul' (w : V) : g.mul 0 w = 0 := if_pos rfl

theorem power_mul (e : ℕ) (w : V) : g.mul (g.power e) w = g.step^[e] w := by
  unfold mul
  rw [if_neg (g.power_ne_zero e)]
  exact g.iterate_congr (g.power_log (g.power_ne_zero e)) w

theorem mul_zero' (v : V) : g.mul v 0 = 0 := by
  unfold mul
  split
  · rfl
  · exact g.iterate_zero_element _

theorem power_mul_power (d e : ℕ) : g.mul (g.power d) (g.power e) = g.power (d + e) := by
  rw [power_mul, iterate_power]

/-- Every element is zero or a power. -/
theorem eq_zero_or_power (v : V) : v = 0 ∨ ∃ e, v = g.power e := by
  by_cases zero : v = 0
  · exact .inl zero
  · exact .inr ⟨g.log v, (g.power_log zero).symm⟩

theorem mul_comm' (v w : V) : g.mul v w = g.mul w v := by
  obtain rfl | ⟨d, rfl⟩ := g.eq_zero_or_power v
  · rw [zero_mul', mul_zero']
  · obtain rfl | ⟨e, rfl⟩ := g.eq_zero_or_power w
    · rw [zero_mul', mul_zero']
    · rw [power_mul_power, power_mul_power, Nat.add_comm]

theorem mul_assoc' (u v w : V) : g.mul (g.mul u v) w = g.mul u (g.mul v w) := by
  obtain rfl | ⟨d, rfl⟩ := g.eq_zero_or_power u
  · rw [zero_mul', zero_mul', zero_mul']
  · obtain rfl | ⟨e, rfl⟩ := g.eq_zero_or_power v
    · rw [mul_zero', zero_mul', mul_zero']
    · rw [power_mul_power, power_mul, power_mul, power_mul, Function.iterate_add_apply]

theorem mul_add' (u v w : V) : g.mul u (v + w) = g.mul u v + g.mul u w := by
  obtain rfl | ⟨e, rfl⟩ := g.eq_zero_or_power u
  · rw [zero_mul', zero_mul', zero_mul', add_zero]
  · rw [power_mul, power_mul, power_mul, iterate_add_element]

theorem add_mul' (u v w : V) : g.mul (u + v) w = g.mul u w + g.mul v w := by
  rw [g.mul_comm' (u + v), g.mul_add', g.mul_comm' w u, g.mul_comm' w v]

theorem mul_inv' {v : V} (nonzero : v ≠ 0) : g.mul v (g.inv v) = g.one := by
  have below := g.log_lt nonzero
  have completed : g.mul (g.power (g.log v)) (g.power (g.order - g.log v)) = g.one := by
    rw [power_mul_power, Nat.add_sub_cancel' below.le]
    exact g.cycle
  rw [g.power_log nonzero] at completed
  unfold inv
  rw [if_neg nonzero, completed]

/-- The field the powers of the map make of the group. -/
@[reducible]
noncomputable def field : Field V :=
  { (inferInstance : AddCommGroup V) with
    mul := g.mul
    one := g.one
    inv := g.inv
    mul_assoc := g.mul_assoc'
    mul_comm := g.mul_comm'
    one_mul := g.power_mul 0
    mul_one := fun v => (g.mul_comm' v g.one).trans (g.power_mul 0 v)
    zero_mul := g.zero_mul'
    mul_zero := g.mul_zero'
    left_distrib := g.mul_add'
    right_distrib := g.add_mul'
    exists_pair_ne := ⟨g.one, 0, g.one_ne_zero⟩
    mul_inv_cancel := fun _ => g.mul_inv'
    inv_zero := if_pos rfl
    nnqsmul := _
    qsmul := _ }

/-- The powers of the map are the powers of the element one step from one. -/
theorem pow_power_one (e : ℕ) : letI := g.field; g.power 1 ^ e = g.power e := by
  let _ := g.field
  induction e with
  | zero => exact pow_zero _
  | succ e ih =>
      rw [pow_succ', ih, Nat.add_comm e 1]
      exact g.power_mul_power 1 e

end Generator

end GeneratedFields
