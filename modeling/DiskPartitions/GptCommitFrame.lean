import DiskPartitions.GptCommit

/-!
# A GPT commit leaves partition data alone

Every unchecked 64-bit operation of a successful commit is exact, the five
regions it writes keep apart from each other and from the usable range of the
header, and every other byte of the device is as it was.
-/

namespace DiskPartitions

open Slices CheckedWords WriteJournal

/-- Every unchecked operation of a commit gives the value of the operation on the
natural numbers: no sum or product wraps, and no difference is negative. -/
structure ExactArithmetic (g : GptGeometry) (total : UInt64) (partitions : List Partition)
    (slots : List UInt32) (lba0 : List ReservedEntry) : Prop where
  arrayBytes : (g.numEntries.toUInt64 * g.entrySize.toUInt64).toNat =
    g.numEntries.toNat * g.entrySize.toNat
  reserve : (g.arraySectors + 1).toNat = g.arraySectors.toNat + 1
  firstPossible : (g.entryLba + g.arraySectors).toNat =
    g.entryLba.toNat + g.arraySectors.toNat
  smallestDevice : (g.entryLba + g.arraySectors + g.backupReserveSectors).toNat =
    (g.entryLba + g.arraySectors).toNat + g.backupReserveSectors.toNat
  lastLba : (total - 1).toNat + 1 = total.toNat
  lastPossible : (total - 1 - g.backupReserveSectors).toNat + g.backupReserveSectors.toNat =
    (total - 1).toNat
  backupEntriesLba : (total - 1 - g.arraySectors).toNat + g.arraySectors.toNat =
    (total - 1).toNat
  entryOffset : (g.entryLba * sectorSize).toNat = g.entryLba.toNat * sectorSize.toNat
  backupOffset : ((total - 1 - g.arraySectors) * sectorSize).toNat =
    (total - 1 - g.arraySectors).toNat * sectorSize.toNat
  lastOffset : ((total - 1) * sectorSize).toNat = (total - 1).toNat * sectorSize.toNat
  partitionEnd : ∀ p ∈ partitions,
    (p.start + p.length).toNat = p.start.toNat + p.length.toNat ∧
      (p.start + p.length - 1).toNat + 1 = (p.start + p.length).toNat
  entryInArray : ∀ slot ∈ slots,
    slot.toNat * g.entrySize.toNat + g.entrySize.toNat ≤ g.arrayBytes.toNat
  mirrors : ∀ entry ∈ lba0, ∀ offset,
    (entry.field offset * sectorSize).toNat = (entry.field offset).toNat * sectorSize.toNat

theorem ReservedEntry.toNat_field_lt (entry : ReservedEntry) (offset : Nat) :
    (entry.field offset).toNat < 2 ^ 32 := by
  have := (LittleEndian.u32At entry.entry.bytes offset).toNat_lt
  simpa [ReservedEntry.field] using this

variable {dev : ByteDevice} {partitions : List Partition} {g : GptGeometry}
  {tails : EntryTails} {plan : GptPlan}

theorem exactArithmetic_of_accepted (accepted : plan.Accepted dev partitions g tails)
    (lba0 : List ReservedEntry) :
    ExactArithmetic g (dev.sizeBytes / sectorSize) partitions plan.slots lba0 := by
  have shape := accepted.usableOn.wellShaped
  have room := accepted.usableOn.room
  have total := totalSectors_lt dev
  have sectors := toNat_totalSectors dev
  have last := toNat_lastLba accepted
  have backup := toNat_backupEntriesLba accepted
  have reserve := GptGeometry.toNat_backupReserveSectors shape
  have first := GptGeometry.toNat_firstPossible shape
  have one : (1 : UInt64).toNat = 1 := rfl
  have fits : ∀ p ∈ partitions, p.FitsGpt plan.usable := by
    intro p member
    rw [← List.map_fst_zip (Nat.le_of_eq accepted.length_slots.symm)] at member
    obtain ⟨seat, present, rfl⟩ := List.mem_map.mp member
    exact accepted.seating.fits seat present
  have lastPossible : (dev.sizeBytes / sectorSize - 1 - g.backupReserveSectors).toNat =
      (dev.sizeBytes / sectorSize - 1).toNat - g.backupReserveSectors.toNat :=
    toNat_sub_of_le (by omega)
  have inTable : ∀ slot ∈ plan.slots, slot.toNat < g.numEntries.toNat := by
    intro slot member
    rw [← List.map_snd_zip (Nat.le_of_eq accepted.length_slots)] at member
    obtain ⟨seat, present, rfl⟩ := List.mem_map.mp member
    exact accepted.seating.bounded seat present
  refine {
    arrayBytes := GptGeometry.toNat_arrayBytes g
    reserve
    firstPossible := first
    smallestDevice := ?_
    lastLba := by omega
    lastPossible := by omega
    backupEntriesLba := by omega
    entryOffset := toNat_lba_mul (by omega)
    backupOffset := toNat_lba_mul (by omega)
    lastOffset := toNat_lba_mul (by omega)
    partitionEnd := ?_
    entryInArray := ?_
    mirrors := ?_ }
  · rw [GptGeometry.toNat_firstPossible_add_reserve shape, first, reserve]
  · intro p member
    have bounded := (fits p member).bounded
    have positive := (fits p member).length_pos
    have stop : (p.start + p.length).toNat = p.start.toNat + p.length.toNat :=
      toNat_add_of_lt bounded
    refine ⟨stop, ?_⟩
    rw [toNat_sub_of_le (by omega), one]
    omega
  · intro slot member
    rw [GptGeometry.toNat_arrayBytes, ← Nat.succ_mul]
    exact Nat.mul_le_mul_right _ (inTable slot member)
  · intro entry _ offset
    have := entry.toNat_field_lt offset
    exact toNat_lba_mul (by omega)

/-- A successful commit computes without overflow, writes five regions of the
device that keep apart from each other, from the usable range its header declares
and from every partition, and changes no other byte. -/
theorem writeGpt_leaves_partitions (crc32 : List UInt8 → UInt32) {diskGuid : Guid}
    {lba0 : List ReservedEntry} {slots : List UInt32} {after : ByteDevice}
    (written : (writeGptAssigningSlots crc32 partitions diskGuid g tails lba0).exec dev =
      (.ok slots, after)) :
    ExactArithmetic g (dev.sizeBytes / sectorSize) partitions slots lba0 ∧
      (∃ writes, after.journal = dev.journal ++ writes ∧
        writes.map Write.region = g.regions (dev.bytes.length / 512)) ∧
      (∀ region ∈ g.regions (dev.bytes.length / 512),
        region.1 + region.2 ≤ dev.bytes.length) ∧
      (g.regions (dev.bytes.length / 512)).Pairwise Apart ∧
      (∃ header, parseHeader crc32 (slice after.bytes 512 512) = .ok header ∧
        (∀ region ∈ g.regions (dev.bytes.length / 512),
          Apart region (header.firstUsableLba.toNat * 512,
            (header.lastUsableLba.toNat + 1 - header.firstUsableLba.toNat) * 512)) ∧
        ∀ p ∈ partitions, header.firstUsableLba.toNat * 512 ≤ p.start.toNat ∧
          p.start.toNat + p.length.toNat ≤ (header.lastUsableLba.toNat + 1) * 512) ∧
      (∀ region ∈ g.regions (dev.bytes.length / 512), ∀ p ∈ partitions,
        Apart region (p.start.toNat, p.length.toNat)) ∧
      after.bytes.length = dev.bytes.length ∧
      ∀ i, (∀ region ∈ g.regions (dev.bytes.length / 512),
          i < region.1 ∨ region.1 + region.2 ≤ i) → after.bytes[i]? = dev.bytes[i]? := by
  obtain ⟨plan, accepted, rfl, rfl⟩ := plan_of_writeGpt crc32 written
  have usableOn := accepted.usableOn
  have regions := writes_region crc32 diskGuid accepted
  have whole : dev.bytes.length / 512 * 512 ≤ dev.bytes.length := Nat.div_mul_le_self _ _
  have inUsable : ∀ p ∈ partitions, plan.usable.1.toNat * 512 ≤ p.start.toNat ∧
      p.start.toNat + p.length.toNat ≤ (plan.usable.2.toNat + 1) * 512 := by
    intro p member
    rw [← List.map_fst_zip (Nat.le_of_eq accepted.length_slots.symm)] at member
    obtain ⟨seat, present, rfl⟩ := List.mem_map.mp member
    have fits := accepted.seating.fits seat present
    have firstLe := fits.first_le
    have endLe := fits.end_le
    have positive := fits.length_pos
    omega
  refine ⟨exactArithmetic_of_accepted accepted lba0, ⟨_, rfl, regions⟩, ?_,
    GptGeometry.regions_pairwise usableOn, ?_, ?_, length_committed crc32 diskGuid accepted, ?_⟩
  · intro region member
    exact Nat.le_trans (GptGeometry.regions_inside usableOn member) whole
  · have primary := parseHeader_primary crc32 diskGuid accepted
    rw [← slice_committed_primary crc32 diskGuid accepted] at primary
    exact ⟨_, primary,
      fun region member => GptGeometry.regions_apart_usable usableOn member, inUsable⟩
  · intro region member p present
    have apart := GptGeometry.regions_apart_usable usableOn member
    obtain ⟨first, last⟩ := inUsable p present
    have order := usableOn.first_le_last
    unfold Apart at apart ⊢
    simp only at apart ⊢
    omega
  · intro i outside
    apply getElem?_applyAll_outside (writes_inside crc32 diskGuid accepted)
    intro write member
    exact outside write.region (by rw [← regions]; exact List.mem_map_of_mem member)

theorem writeGpt_leaves_smallPartition :
    ∃ after, (writeGptAssigningSlots CyclicSums.ieee [smallPartition] unusedTypeGuid
        smallGeometry (fun _ => none) []).exec eightSectors = (.ok [0], after) ∧
      ∀ region ∈ smallGeometry.regions (eightSectors.bytes.length / 512),
        ∀ p ∈ [smallPartition], Apart region (p.start.toNat, p.length.toNat) := by
  obtain ⟨after, written⟩ := exists_writeGpt CyclicSums.ieee unusedTypeGuid gptPlan_eightSectors
  obtain ⟨_, _, _, _, _, apart, _⟩ := writeGpt_leaves_partitions CyclicSums.ieee written
  exact ⟨after, written, apart⟩

end DiskPartitions
