import DiskPartitions.GptWriter

/-!
# Where a GPT commit writes

A geometry that passes the checks describes five regions of the device: LBA 0,
LBA 1, the entry array, its backup copy and the last LBA.  They lie inside the
device, they are apart, and none of them meets the usable range.
-/

namespace DiskPartitions

open Slices LittleEndian CheckedWords Refusals WriteJournal

namespace GptGeometry

theorem toNat_arrayBytes (g : GptGeometry) :
    g.arrayBytes.toNat = g.numEntries.toNat * g.entrySize.toNat := by
  have entries := g.numEntries.toNat_lt
  have size := g.entrySize.toNat_lt
  have bounded : g.numEntries.toNat * g.entrySize.toNat < 2 ^ 64 :=
    Nat.lt_of_lt_of_le (Nat.mul_lt_mul'' entries size) (by norm_num)
  unfold arrayBytes
  rw [toNat_mul_of_lt (by simpa using bounded)]
  simp

theorem toNat_arraySectors (g : GptGeometry) :
    g.arraySectors.toNat = (g.arrayBytes.toNat + 511) / 512 := by
  unfold arraySectors
  rw [toNat_divCeil (by simp), toNat_sectorSize]
  rfl

/-- The array lies in its sectors. -/
theorem arrayBytes_le (g : GptGeometry) :
    g.arrayBytes.toNat ≤ g.arraySectors.toNat * 512 := by
  rw [toNat_arraySectors]
  omega

/-- What `checkShape` asks of a geometry. -/
structure WellShaped (g : GptGeometry) : Prop where
  entries_pos : 0 < g.numEntries.toNat
  entries_le : g.numEntries.toNat ≤ 4096
  size_ge : 128 ≤ g.entrySize.toNat
  size_le : g.entrySize.toNat ≤ 4096
  size_isEntrySize : isEntrySize g.entrySize = true
  lba_ge : 2 ≤ g.entryLba.toNat
  end_le : g.entryLba.toNat + g.arraySectors.toNat ≤ maxLba.toNat

theorem toNat_maxLba : maxLba.toNat = 2 ^ 55 - 1 := by decide

theorem all_checkedAdd {a b : UInt64} :
    (checkedAdd a b).all (decide <| maxLba < ·) = true ↔ maxLba.toNat < a.toNat + b.toNat := by
  have bound := toNat_maxLba
  cases sum : checkedAdd a b with
  | none =>
      rw [checkedAdd_eq_none] at sum
      simp only [Option.all_none, true_iff]
      omega
  | some value =>
      rw [checkedAdd_eq_some] at sum
      rw [Option.all_some, decide_eq_true_iff, UInt64.lt_iff_toNat_lt, sum]

theorem checkShape_eq_ok {g : GptGeometry} {passed : Unit} :
    g.checkShape = .ok passed ↔ g.WellShaped := by
  have zero : g.numEntries = 0 ↔ g.numEntries.toNat = 0 := by
    rw [← UInt32.toNat_inj]
    rfl
  have entries : ∀ {a : UInt32}, 4096 < a ↔ 4096 < a.toNat := UInt32.lt_iff_toNat_lt
  have small : g.entrySize < GptLayout.entrySize ↔ g.entrySize.toNat < 128 :=
    UInt32.lt_iff_toNat_lt
  have low : g.entryLba < 2 ↔ g.entryLba.toNat < 2 := UInt64.lt_iff_toNat_lt
  have high : ∀ {a : UInt64}, maxLba < a ↔ maxLba.toNat < a.toNat := UInt64.lt_iff_toNat_lt
  simp only [checkShape, refuseIf_bind_eq_ok, refuseIf_eq_ok, all_checkedAdd, not_not]
  rw [zero, entries, entries, small, low, high, high]
  constructor
  · rintro ⟨positive, few, sizeLe, sizeGe, size, lba, _, _, stop⟩
    exact ⟨by omega, by omega, by omega, by omega, size, by omega, by omega⟩
  · rintro ⟨positive, few, sizeGe, sizeLe, size, lba, stop⟩
    exact ⟨by omega, by omega, by omega, by omega, size, by omega, by omega, by omega, by omega⟩

/-- What a usable range on a device of `total` sectors is: after the entry array,
before the backup copy, and at least one sector long. -/
structure UsableOn (g : GptGeometry) (total : Nat) (usable : UInt64 × UInt64) : Prop where
  wellShaped : g.WellShaped
  room : g.entryLba.toNat + 2 * g.arraySectors.toNat + 1 < total
  first_ge : g.entryLba.toNat + g.arraySectors.toNat ≤ usable.1.toNat
  last_lt : usable.2.toNat + g.arraySectors.toNat + 1 < total
  first_le_last : usable.1.toNat ≤ usable.2.toNat

theorem toNat_firstPossible {g : GptGeometry} (shape : g.WellShaped) :
    (g.entryLba + g.arraySectors).toNat = g.entryLba.toNat + g.arraySectors.toNat := by
  have := shape.end_le
  have := toNat_maxLba
  exact toNat_add_of_lt (by omega)

theorem toNat_backupReserveSectors {g : GptGeometry} (shape : g.WellShaped) :
    g.backupReserveSectors.toNat = g.arraySectors.toNat + 1 := by
  have := shape.end_le
  have := toNat_maxLba
  have one : (1 : UInt64).toNat = 1 := rfl
  unfold backupReserveSectors
  rw [toNat_add_of_lt (by omega), one]

theorem toNat_firstPossible_add_reserve {g : GptGeometry} (shape : g.WellShaped) :
    (g.entryLba + g.arraySectors + g.backupReserveSectors).toNat =
      g.entryLba.toNat + g.arraySectors.toNat + (g.arraySectors.toNat + 1) := by
  have := shape.end_le
  have := toNat_maxLba
  have first := toNat_firstPossible shape
  have reserve := toNat_backupReserveSectors shape
  rw [toNat_add_of_lt (by omega), first, reserve]

/-- The last sector in front of the backup copy. -/
theorem toNat_lastPossible {g : GptGeometry} (shape : g.WellShaped) {total : UInt64}
    (room : g.arraySectors.toNat + 2 ≤ total.toNat) :
    (total - 1 - g.backupReserveSectors).toNat =
      total.toNat - 1 - (g.arraySectors.toNat + 1) := by
  have reserve := toNat_backupReserveSectors shape
  have one : (1 : UInt64).toNat = 1 := rfl
  have lastLba : (total - 1).toNat = total.toNat - 1 := by
    rw [toNat_sub_of_le (by omega), one]
  rw [toNat_sub_of_le (by omega), lastLba, reserve]

theorem usableRange_eq_ok {g : GptGeometry} {total : UInt64} {usable : UInt64 × UInt64}
    (accepted : g.usableRange total = .ok usable) : g.UsableOn total.toNat usable := by
  obtain ⟨_, shaped, accepted⟩ := bind_eq_ok.mp accepted
  have shape := checkShape_eq_ok.mp shaped
  obtain ⟨large, accepted⟩ := refuseIf_bind_eq_ok.mp accepted
  have first := toNat_firstPossible shape
  have both := toNat_firstPossible_add_reserve shape
  rw [UInt64.le_iff_toNat_le, both] at large
  have last := toNat_lastPossible shape (by omega : g.arraySectors.toNat + 2 ≤ total.toNat)
  split at accepted
  · cases accepted
    exact ⟨shape, by omega, by simp only; omega, by simp only; omega, by simp only; omega⟩
  next declaredFirst declaredLast _ =>
    obtain ⟨after, accepted⟩ := refuseIf_bind_eq_ok.mp accepted
    obtain ⟨before, accepted⟩ := refuseIf_bind_eq_ok.mp accepted
    obtain ⟨forward, accepted⟩ := refuseIf_bind_eq_ok.mp accepted
    cases accepted
    rw [UInt64.lt_iff_toNat_lt] at after before forward
    exact ⟨shape, by omega, by simp only; omega, by simp only; omega, by simp only; omega⟩

/-- The five regions a commit writes on a device of `total` sectors. -/
def regions (g : GptGeometry) (total : Nat) : List (Nat × Nat) :=
  [(0, 512), (512, 512), (g.entryLba.toNat * 512, g.arrayBytes.toNat),
    ((total - 1 - g.arraySectors.toNat) * 512, g.arrayBytes.toNat), ((total - 1) * 512, 512)]

section Regions

variable {g : GptGeometry} {total : Nat} {usable : UInt64 × UInt64}
  (fits : g.UsableOn total usable)

include fits

theorem regions_inside {region : Nat × Nat} (member : region ∈ g.regions total) :
    region.1 + region.2 ≤ total * 512 := by
  have room := fits.room
  have lba := fits.wellShaped.lba_ge
  have bytes := g.arrayBytes_le
  simp only [regions, List.mem_cons, List.not_mem_nil, or_false] at member
  rcases member with rfl | rfl | rfl | rfl | rfl <;> simp only <;> omega

theorem regions_pairwise : (g.regions total).Pairwise Apart := by
  have room := fits.room
  have lba := fits.wellShaped.lba_ge
  have bytes := g.arrayBytes_le
  simp only [regions, List.pairwise_cons, List.forall_mem_cons, List.Pairwise.nil, Apart,
    List.not_mem_nil, false_imp_iff, implies_true, and_true]
  omega

/-- No region meets the usable sectors. -/
theorem regions_apart_usable {region : Nat × Nat} (member : region ∈ g.regions total) :
    Apart region (usable.1.toNat * 512, (usable.2.toNat + 1 - usable.1.toNat) * 512) := by
  have room := fits.room
  have lba := fits.wellShaped.lba_ge
  have bytes := g.arrayBytes_le
  have first := fits.first_ge
  have last := fits.last_lt
  have order := fits.first_le_last
  simp only [regions, List.mem_cons, List.not_mem_nil, or_false] at member
  unfold Apart
  rcases member with rfl | rfl | rfl | rfl | rfl <;> simp only <;> omega

end Regions

end GptGeometry

end DiskPartitions
