import Mathlib.Order.Bounds.Defs

/-!
# First fit among occupied ranges

A range of a given length is wanted at a multiple of a unit, inside a window and clear of the
occupied ranges.  One pass over the occupied ranges in the order of their starts finds the
first place for it: a cursor stays at a multiple of the unit, past every range it has met and
past no place the wanted range would fit, and it never goes back.
-/

namespace FirstFit

/-- The next multiple of the unit. -/
def roundUp (unit value : Nat) : Nat := (value + (unit - 1)) / unit * unit

/-- A place for `len` cells at a multiple of the unit, from `first` to before `stop`, clear of
the occupied ranges, which include both their ends. -/
structure Fits (unit len first stop : Nat) (occupied : List (Nat × Nat)) (place : Nat) :
    Prop where
  aligned : unit ∣ place
  first_le : first ≤ place
  stop_le : place + len ≤ stop
  clear : ∀ range ∈ occupied, range.2 < place ∨ place + len ≤ range.1

/-- The pass over the occupied ranges. -/
def search (unit len stop : Nat) : List (Nat × Nat) → Nat → Option Nat
  | [], cursor => if cursor + len ≤ stop then some cursor else none
  | range :: rest, cursor =>
      if cursor + len ≤ range.1 ∧ cursor + len ≤ stop then some cursor
      else search unit len stop rest (max cursor (roundUp unit (range.2 + 1)))

section Rounding

variable {unit : Nat} (positive : 0 < unit) (value : Nat)

include positive in
theorem le_roundUp : value ≤ roundUp unit value := by
  have division := Nat.div_add_mod (value + (unit - 1)) unit
  have remainder := Nat.mod_lt (value + (unit - 1)) positive
  rw [roundUp, Nat.mul_comm]
  omega

theorem dvd_roundUp : unit ∣ roundUp unit value := ⟨_, Nat.mul_comm _ _⟩

include positive in
/-- No multiple lies between a number and the next multiple. -/
theorem roundUp_le {multiple : Nat} (aligned : unit ∣ multiple) (past : value ≤ multiple) :
    roundUp unit value ≤ multiple := by
  obtain ⟨count, rfl⟩ := aligned
  rw [roundUp, Nat.mul_comm unit count]
  apply Nat.mul_le_mul_right
  rw [Nat.div_le_iff_le_mul positive, Nat.mul_comm]
  omega

end Rounding

section Searching

variable {unit len first stop : Nat} {occupied : List (Nat × Nat)} {place : Nat}

/-- Only which ranges are occupied matters. -/
theorem Fits.of_mem_iff {other : List (Nat × Nat)}
    (same : ∀ range, range ∈ other ↔ range ∈ occupied)
    (fits : Fits unit len first stop occupied place) : Fits unit len first stop other place where
  aligned := fits.aligned
  first_le := fits.first_le
  stop_le := fits.stop_le
  clear := fun range member => fits.clear range ((same range).mp member)

/-- What holds of the cursor: a multiple of the unit past the ranges met so far, with no fit
before it. -/
structure Reached (unit len first stop : Nat) (seen rest : List (Nat × Nat)) (cursor : Nat) :
    Prop where
  aligned : unit ∣ cursor
  first_le : first ≤ cursor
  passed : ∀ range ∈ seen, range.2 < cursor
  least : ∀ place < cursor, ¬ Fits unit len first stop (seen ++ rest) place

theorem reached_start (positive : 0 < unit) (rest : List (Nat × Nat)) :
    Reached unit len first stop [] rest (roundUp unit first) where
  aligned := dvd_roundUp first
  first_le := le_roundUp positive first
  passed := by simp
  least := by
    intro place before fits
    have after := roundUp_le positive first fits.aligned fits.first_le
    omega

/-- A cursor whose range ends before the next occupied one starts is the first fit. -/
theorem isLeast_of_gap {seen rest : List (Nat × Nat)} {cursor : Nat}
    (reached : Reached unit len first stop seen rest cursor) (inside : cursor + len ≤ stop)
    (gap : ∀ range ∈ rest, cursor + len ≤ range.1) :
    IsLeast { place | Fits unit len first stop (seen ++ rest) place } cursor := by
  constructor
  · refine ⟨reached.aligned, reached.first_le, inside, ?_⟩
    intro range member
    rcases List.mem_append.mp member with met | ahead
    · exact .inl (reached.passed range met)
    · exact .inr (gap range ahead)
  · intro place fits
    exact Nat.le_of_not_lt fun before => reached.least place before fits

/-- Moving the cursor past a range that is in the way, or past the window, loses no fit. -/
theorem reached_step (positive : 0 < unit) {seen rest : List (Nat × Nat)} {range : Nat × Nat}
    {cursor : Nat} (reached : Reached unit len first stop seen (range :: rest) cursor)
    (blocked : ¬ (cursor + len ≤ range.1 ∧ cursor + len ≤ stop)) :
    Reached unit len first stop (seen ++ [range]) rest
      (max cursor (roundUp unit (range.2 + 1))) where
  aligned := by
    rcases Nat.le_total cursor (roundUp unit (range.2 + 1)) with below | above
    · rw [Nat.max_eq_right below]
      exact dvd_roundUp _
    · rw [Nat.max_eq_left above]
      exact reached.aligned
  first_le := Nat.le_trans reached.first_le (Nat.le_max_left _ _)
  passed := by
    intro other member
    have past := le_roundUp positive (range.2 + 1)
    rcases List.mem_append.mp member with met | same
    · have before := reached.passed other met
      omega
    · rw [List.mem_singleton.mp same]
      omega
  least := by
    intro place before fits
    rw [List.append_assoc, List.singleton_append] at fits
    have after : cursor ≤ place :=
      Nat.le_of_not_lt fun earlier => reached.least place earlier fits
    -- a fit between the two cursors would end inside the range or start there
    have window := fits.stop_le
    have clear := fits.clear range (by simp)
    have beyond : place < roundUp unit (range.2 + 1) := by omega
    have inside : place ≤ range.2 := by
      apply Nat.le_of_not_lt
      intro outside
      have next := roundUp_le positive (range.2 + 1) fits.aligned outside
      omega
    omega

/-- The pass finds the first fit, and nothing exactly when there is none. -/
theorem search_spec (positive : 0 < unit) {seen rest : List (Nat × Nat)} {cursor : Nat}
    (sorted : rest.Pairwise fun a b => a.1 ≤ b.1)
    (reached : Reached unit len first stop seen rest cursor) :
    match search unit len stop rest cursor with
    | some place => IsLeast { place | Fits unit len first stop (seen ++ rest) place } place
    | none => ∀ place, ¬ Fits unit len first stop (seen ++ rest) place := by
  induction rest generalizing seen cursor with
  | nil =>
      rw [search]
      split
      next found =>
          split at found
          next inside =>
              cases found
              exact isLeast_of_gap reached inside (by simp)
          next => cases found
      next missed =>
          split at missed
          next => cases missed
          next outside =>
              intro place fits
              have before : ¬ place < cursor := fun before => reached.least place before fits
              have window := fits.stop_le
              omega
  | cons range rest ih =>
      obtain ⟨ahead, sorted⟩ := List.pairwise_cons.mp sorted
      rw [search]
      by_cases free : cursor + len ≤ range.1 ∧ cursor + len ≤ stop
      · rw [if_pos free]
        refine isLeast_of_gap reached free.2 ?_
        intro other member
        rcases List.mem_cons.mp member with rfl | later
        · exact free.1
        · exact Nat.le_trans free.1 (ahead other later)
      · rw [if_neg free]
        have next := ih sorted (reached_step positive reached free)
        rwa [List.append_assoc, List.singleton_append] at next

end Searching

end FirstFit
