import DiskPartitions.MdLayouts
import Mathlib.Data.List.Flatten
import Mathlib.Data.List.Nodup
import Mathlib.Data.Nat.ModEq

/-!
# Where RAID10 copies fall

The copies of one chunk fall on different slots, and the slots they fall on
depend on the chunk only modulo the member count.  Over all the chunks whose
copies fit the rows of a member, no two copies of the array share a place.
-/

namespace DiskPartitions

namespace Raid10

variable {geo : Raid10} {d : Nat}

/-- The slot of copy `(i, k)` of a chunk. -/
def copySlot (geo : Raid10) (d c i k : Nat) : Nat :=
  ((c * geo.near + i) % d + k * geo.near) % d

/-- The row of copy `(i, k)` of a chunk on its member. -/
def copyRow (geo : Raid10) (d c i k : Nat) : Nat :=
  if geo.offset then (c * geo.near + i) / d * geo.far + k
  else (c * geo.near + i) / d + k * geo.stride

theorem copies_eq (geo : Raid10) (d c : Nat) :
    geo.copies d c = (List.range geo.near).flatMap fun i =>
      (List.range geo.far).map fun k => (geo.copySlot d c i k, geo.copyRow d c i k) := rfl

theorem mem_copies {c : Nat} {place : Nat × Nat} :
    place ∈ geo.copies d c ↔ ∃ i < geo.near, ∃ k < geo.far,
      place = (geo.copySlot d c i k, geo.copyRow d c i k) := by
  rw [copies_eq]
  simp only [List.mem_flatMap, List.mem_map, List.mem_range]
  constructor
  · rintro ⟨i, near, k, far, rfl⟩
    exact ⟨i, near, k, far, rfl⟩
  · rintro ⟨i, near, k, far, rfl⟩
    exact ⟨i, near, k, far, rfl⟩

theorem length_copies (geo : Raid10) (d c : Nat) :
    (geo.copies d c).length = geo.near * geo.far := by
  simp [copies_eq, List.length_flatMap]

theorem copySlot_lt (several : 0 < d) (c i k : Nat) : geo.copySlot d c i k < d :=
  Nat.mod_lt _ several

/-- The copies of a chunk are at consecutive places around the members. -/
theorem copySlot_eq (geo : Raid10) (d c i k : Nat) :
    geo.copySlot d c i k = (c * geo.near + (i + k * geo.near)) % d := by
  rw [copySlot, Nat.mod_add_mod, Nat.add_assoc]

/-- Two places less than once around apart are the same when they meet. -/
theorem eq_of_add_mod_eq {base first second : Nat} (firstBound : first < d)
    (secondBound : second < d) (same : (base + first) % d = (base + second) % d) :
    first = second :=
  Nat.ModEq.eq_of_lt_of_lt (Nat.ModEq.add_left_cancel' base same) firstBound secondBound

/-- Mixed digits are determined by the number they write. -/
theorem digits_unique {base low low' high high' : Nat} (bound : low < base)
    (bound' : low' < base) (same : low + high * base = low' + high' * base) :
    low = low' ∧ high = high' := by
  have lows : low = low' := by
    have := congrArg (· % base) same
    simpa [Nat.mod_eq_of_lt bound, Nat.mod_eq_of_lt bound'] using this
  have highs : high * base = high' * base := by omega
  exact ⟨lows, Nat.eq_of_mul_eq_mul_right (by omega) highs⟩

theorem copyIndex_lt {i k : Nat} (fits : geo.near * geo.far ≤ d) (near : i < geo.near)
    (far : k < geo.far) : i + k * geo.near < d := by
  have next : (k + 1) * geo.near ≤ geo.far * geo.near := Nat.mul_le_mul_right _ far
  rw [Nat.succ_mul, Nat.mul_comm geo.far] at next
  omega

/-- The copies of one chunk are on different slots. -/
theorem slots_nodup (fits : geo.near * geo.far ≤ d) (c : Nat) :
    ((geo.copies d c).map Prod.fst).Nodup := by
  rw [copies_eq, List.map_flatMap, List.nodup_flatMap]
  simp only [List.map_map, Function.comp_def]
  -- two copies on one slot are at one place around the members
  have unique : ∀ i < geo.near, ∀ k < geo.far, ∀ i' < geo.near, ∀ k' < geo.far,
      geo.copySlot d c i k = geo.copySlot d c i' k' → i = i' ∧ k = k' := by
    intro i near k far i' near' k' far' same
    rw [copySlot_eq, copySlot_eq] at same
    exact digits_unique near near'
      (eq_of_add_mod_eq (copyIndex_lt fits near far) (copyIndex_lt fits near' far') same)
  constructor
  · intro i near
    apply List.Nodup.map_on _ List.nodup_range
    intro k far k' far' same
    exact (unique i (List.mem_range.mp near) k (List.mem_range.mp far) i (List.mem_range.mp near)
      k' (List.mem_range.mp far') same).2
  · apply List.Pairwise.imp_of_mem _ List.nodup_range
    intro i i' near near' distinct slot first second
    obtain ⟨k, far, rfl⟩ := List.mem_map.mp first
    obtain ⟨k', far', same⟩ := List.mem_map.mp second
    exact distinct (unique i (List.mem_range.mp near) k (List.mem_range.mp far) i'
      (List.mem_range.mp near') k' (List.mem_range.mp far') same.symm).1

/-- The slots of a chunk's copies depend on the chunk modulo the member count. -/
theorem slots_periodic (geo : Raid10) (d c : Nat) :
    (geo.copies d (c % d)).map Prod.fst = (geo.copies d c).map Prod.fst := by
  have same : ∀ i k, geo.copySlot d (c % d) i k = geo.copySlot d c i k := by
    intro i k
    rw [copySlot_eq, copySlot_eq]
    exact Nat.ModEq.add_right _ (Nat.ModEq.mul_right _ (Nat.mod_modEq c d))
  simp only [copies_eq, List.map_flatMap, List.map_map, Function.comp_def, same]

/-- The primary copy is the first. -/
theorem copies_eq_cons (near : 0 < geo.near) (far : 0 < geo.far) (c : Nat) :
    ∃ rest, geo.copies d c = geo.primary d c :: rest := by
  have first : geo.primary d c = (geo.copySlot d c 0 0, geo.copyRow d c 0 0) := by
    simp [primary, copySlot, copyRow]
  obtain ⟨near', nearEq⟩ := Nat.exists_eq_succ_of_ne_zero near.ne'
  obtain ⟨far', farEq⟩ := Nat.exists_eq_succ_of_ne_zero far.ne'
  rw [copies_eq, first, nearEq, farEq, List.range_succ_eq_map, List.range_succ_eq_map]
  exact ⟨_, rfl⟩

/-! ## Over all the chunks -/

section Fitting

variable {rows chunks : Nat}

/-- The first `chunks` chunks of an array whose members hold `rows` rows. -/
structure Fits (geo : Raid10) (d rows chunks : Nat) : Prop where
  members : 0 < d
  near : 0 < geo.near
  far : 0 < geo.far
  stride : geo.stride = rows / geo.far
  bounded : chunks * geo.near ≤ rows / geo.far * d

variable (fits : geo.Fits d rows chunks)
include fits

theorem Fits.row_lt {c i : Nat} (chunk : c < chunks) (near : i < geo.near) :
    (c * geo.near + i) / d < rows / geo.far := by
  have next : (c + 1) * geo.near ≤ chunks * geo.near := Nat.mul_le_mul_right _ chunk
  have bounded := fits.bounded
  rw [Nat.succ_mul] at next
  rw [Nat.div_lt_iff_lt_mul fits.members]
  omega

/-- Every copy is on a row the members have. -/
theorem Fits.copyRow_lt {c i k : Nat} (chunk : c < chunks) (near : i < geo.near)
    (far : k < geo.far) : geo.copyRow d c i k < rows := by
  have row := fits.row_lt chunk near
  have sections : rows / geo.far * geo.far ≤ rows := Nat.div_mul_le_self _ _
  unfold copyRow
  split
  next offset =>
    have next : ((c * geo.near + i) / d + 1) * geo.far ≤ rows / geo.far * geo.far :=
      Nat.mul_le_mul_right _ row
    rw [Nat.succ_mul] at next
    omega
  next separate =>
    have next : (k + 1) * (rows / geo.far) ≤ geo.far * (rows / geo.far) :=
      Nat.mul_le_mul_right _ far
    rw [Nat.succ_mul, Nat.mul_comm geo.far] at next
    rw [fits.stride]
    omega

/-- A place holds at most one copy of the array. -/
theorem Fits.copy_unique {c c' i i' k k' : Nat} (chunk : c < chunks) (chunk' : c' < chunks)
    (near : i < geo.near) (near' : i' < geo.near) (far : k < geo.far) (far' : k' < geo.far)
    (sameSlot : geo.copySlot d c i k = geo.copySlot d c' i' k')
    (sameRow : geo.copyRow d c i k = geo.copyRow d c' i' k') : c = c' ∧ i = i' ∧ k = k' := by
  have row := fits.row_lt chunk near
  have row' := fits.row_lt chunk' near'
  have parts : (c * geo.near + i) / d = (c' * geo.near + i') / d ∧ k = k' := by
    unfold copyRow at sameRow
    split at sameRow
    next offset =>
      have := digits_unique far far' (by omega : k + (c * geo.near + i) / d * geo.far =
        k' + (c' * geo.near + i') / d * geo.far)
      exact ⟨this.2, this.1⟩
    next separate =>
      rw [fits.stride] at sameRow
      exact digits_unique row row' sameRow
  obtain ⟨rows, rfl⟩ := parts
  have slots : (c * geo.near + i) % d = (c' * geo.near + i') % d := by
    unfold copySlot at sameSlot
    have lower := Nat.mod_lt (c * geo.near + i) fits.members
    have lower' := Nat.mod_lt (c' * geo.near + i') fits.members
    rw [Nat.add_comm _ (k * geo.near), Nat.add_comm _ (k * geo.near)] at sameSlot
    exact eq_of_add_mod_eq lower lower' sameSlot
  have places : i + c * geo.near = i' + c' * geo.near := by
    have whole := Nat.div_add_mod (c * geo.near + i) d
    have whole' := Nat.div_add_mod (c' * geo.near + i') d
    rw [rows, slots] at whole
    omega
  obtain ⟨rfl, rfl⟩ := digits_unique near near' places
  exact ⟨rfl, rfl, rfl⟩

/-- No two copies of the array share a place. -/
theorem Fits.places_nodup (apart : geo.near * geo.far ≤ d) :
    ((List.range chunks).flatMap fun c => geo.copies d c).Nodup := by
  rw [List.nodup_flatMap]
  constructor
  · intro c _
    exact List.Nodup.of_map Prod.fst (slots_nodup apart c)
  · apply List.Pairwise.imp_of_mem _ List.nodup_range
    intro c c' chunk chunk' distinct place first second
    obtain ⟨i, near, k, far, rfl⟩ := mem_copies.mp first
    obtain ⟨i', near', k', far', same⟩ := mem_copies.mp second
    rw [Prod.mk.injEq] at same
    exact distinct (fits.copy_unique (List.mem_range.mp chunk) (List.mem_range.mp chunk') near near'
      far far' same.1 same.2).1

end Fitting

end Raid10

end DiskPartitions
