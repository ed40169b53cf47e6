import DiskPartitions.EditedMbr

/-!
# Committing a probed MBR without an edit

The commit rebuilds every slot of the table from the set the probe made of it.  A
reserved entry comes back byte for byte, and so does a volume's entry but for its
status byte, of which the set keeps one bit.  A slot that is not in use comes back
as zeros.  So the sector is the old one exactly when no status byte and no unused
slot held more than that.
-/

namespace DiskPartitions

open Slices LittleEndian CheckedWords Refusals WriteJournal KeyOrder FallibleState

/-- The sixteen bytes of primary entry `i`. -/
def sectorEntry (lba0 : List UInt8) (i : Nat) : List UInt8 :=
  slice lba0 (MbrLayout.entryAt i) MbrLayout.entrySize

/-- The list of volumes has an entry for slot `i`. -/
def HoldsVolume (lba0 : List UInt8) (i : Nat) : Prop :=
  IsVolumeType (typeByteAt lba0 i) ∧ sectorCountAt lba0 i ≠ 0

instance (lba0 : List UInt8) (i : Nat) : Decidable (HoldsVolume lba0 i) :=
  inferInstanceAs (Decidable (_ ∧ _))

/-- Slot `i` says nothing the set forgets: it is zeros when it is not in use, and
a volume's status byte is one of the two a commit writes. -/
structure Restorable (lba0 : List UInt8) (i : Nat) : Prop where
  unused : typeByteAt lba0 i = MbrTypes.empty → sectorEntry lba0 i = emptyEntry
  status : HoldsVolume lba0 i →
    byteAt lba0 (MbrLayout.entryAt i) = 0 ∨ byteAt lba0 (MbrLayout.entryAt i) = statusActive

/-! ## A sector by its parts -/

section Sectors

variable {lba0 : List UInt8} (width : lba0.length = 512) {i : Nat}
  (bounded : i < MbrLayout.entryCount)

include width in
theorem length_sectorEntry : EntryWidths (sectorEntry lba0) := by
  intro i bounded
  unfold MbrLayout.entryCount at bounded
  refine length_slice ?_
  rw [width, MbrLayout.entryAt, MbrLayout.tableStart, MbrLayout.entrySize]
  omega

/-- A signed sector is its boot code, its entries and the signature. -/
theorem mbrSector_of_signed (width : lba0.length = 512)
    (signed : hasBootSignature lba0 = true) :
    mbrSector (slice lba0 0 MbrLayout.tableStart) (sectorEntry lba0) [0x55, 0xAA] = lba0 := by
  have entries : blocks (sectorEntry lba0) MbrLayout.entryCount =
      slice lba0 MbrLayout.tableStart (MbrLayout.entryCount * MbrLayout.entrySize) :=
    blocks_slices lba0 MbrLayout.tableStart MbrLayout.entrySize MbrLayout.entryCount
  have signature : [0x55, 0xAA] = slice lba0 510 2 := by
    simp only [hasBootSignature, byteAt, Bool.and_eq_true, beq_iff_eq,
      List.getD_eq_getElem?_getD] at signed
    have first : lba0[510]? = some 0x55 := by
      rw [List.getElem?_eq_getElem (by omega)] at signed ⊢
      exact congrArg some signed.1
    have second : lba0[511]? = some 0xAA := by
      rw [List.getElem?_eq_getElem (by omega : 511 < lba0.length)] at signed ⊢
      exact congrArg some signed.2
    apply List.ext_getElem?
    intro index
    rw [getElem?_slice]
    rcases index with _ | _ | index
    · exact first.symm
    · exact second.symm
    · simp
  have whole := slice_full lba0
  rw [width] at whole
  have head : slice lba0 0 446 ++ slice lba0 446 64 = slice lba0 0 510 :=
    slice_append_slice lba0 0 446 64
  have rest : slice lba0 0 510 ++ slice lba0 510 2 = slice lba0 0 512 :=
    slice_append_slice lba0 0 510 2
  rw [mbrSector, entries, signature]
  exact (congrArg (· ++ slice lba0 510 2) head).trans (rest.trans whole)

/-- Sectors that differ in their tables only are the same when their slots are. -/
theorem sectorEntry_mbrSector {boot signature : List UInt8} {block : Nat → List UInt8} {i : Nat}
    (bootLength : boot.length = MbrLayout.tableStart) (widths : EntryWidths block)
    (bounded : i < MbrLayout.entryCount) :
    sectorEntry (mbrSector boot block signature) i = block i := by
  have width := widths i bounded
  have whole : slice (mbrSector boot block signature) (MbrLayout.entryAt i + 0)
      MbrLayout.entrySize = slice (block i) 0 MbrLayout.entrySize :=
    slice_mbrSector bootLength widths bounded (Nat.le_of_eq (Nat.zero_add _))
  rw [← width, slice_full, width] at whole
  exact whole

theorem mbrSector_inj {boot signature : List UInt8} {first second : Nat → List UInt8}
    (firstWidths : EntryWidths first) (secondWidths : EntryWidths second) :
    mbrSector boot first signature = mbrSector boot second signature ↔
      ∀ i < MbrLayout.entryCount, first i = second i := by
  unfold mbrSector
  rw [List.append_left_inj, List.append_right_inj, blocks_inj firstWidths secondWidths]

theorem byteAt_sectorEntry {start : Nat} (inside : start < MbrLayout.entrySize) :
    byteAt (sectorEntry lba0 i) start = byteAt lba0 (MbrLayout.entryAt i + start) := by
  unfold byteAt sectorEntry
  rw [List.getD_eq_getElem?_getD, List.getD_eq_getElem?_getD, getElem?_slice, if_pos inside]

theorem u32At_sectorEntry {start : Nat} (inside : start + 4 ≤ MbrLayout.entrySize) :
    u32At (sectorEntry lba0 i) start = u32At lba0 (MbrLayout.entryAt i + start) := by
  unfold u32At field sectorEntry
  rw [slice_slice inside]

end Sectors

/-! ## What the set makes of a slot -/

section Slots

variable {lba0 : List UInt8} {size : UInt64} {i : Nat}

/-- The volume of slot `i`, as the probe reports it. -/
def slotVolume (lba0 : List UInt8) (size : UInt64) (i : Nat) : Partition :=
  let start := (u32At lba0 (MbrLayout.entryAt i + MbrLayout.startLba)).toUInt64 * sectorSize
  let length := (sectorCountAt lba0 i).toUInt64 * sectorSize
  { start
    length
    kind := .mbr (typeByteAt lba0 i) (byteAt lba0 (MbrLayout.entryAt i) &&& 0x80 != 0)
    label := none
    uuid := none
    slot := some (UInt32.ofNat i)
    issues := 0
    availableLength := availableOnDevice start length size }

theorem slot_of_parseMbrEntry {i : Nat} {p : Partition}
    (found : parseMbrEntry lba0 size i = some p) : p.slot = some (UInt32.ofNat i) := by
  simp only [parseMbrEntry] at found
  split at found
  · cases found
  · split at found
    · cases found
    · cases found
      rfl

/-- The partitions of a probed MBR are the volumes of its slots. -/
theorem mem_parseMbr {p : Partition} :
    p ∈ parseMbr lba0 size ↔
      ∃ i < MbrLayout.entryCount, HoldsVolume lba0 i ∧ p = slotVolume lba0 size i := by
  have parsed (i : Nat) : (parseMbrEntry lba0 size i).filter isVolume =
      if HoldsVolume lba0 i then some (slotVolume lba0 size i) else none := by
    simp only [parseMbrEntry, HoldsVolume, IsVolumeType]
    by_cases empty : typeByteAt lba0 i = MbrTypes.empty
    · simp [empty]
    · by_cases none : sectorCountAt lba0 i = 0
      · simp [empty, none]
      · by_cases volume : entryRole (typeByteAt lba0 i) = .volume
        · simp [empty, none, volume, isVolume, Option.filter, slotVolume]
        · simp [empty, none, volume, isVolume, Option.filter]
  unfold parseMbr parseAllEntries
  rw [List.filter_filterMap, List.mem_filterMap]
  constructor
  · rintro ⟨i, member, found⟩
    rw [parsed] at found
    split at found
    · next holds => exact ⟨i, List.mem_range.mp member, holds, (Option.some.inj found).symm⟩
    · cases found
  · rintro ⟨i, bounded, holds, rfl⟩
    exact ⟨i, List.mem_range.mpr bounded, by rw [parsed, if_pos holds]⟩

/-- A slot in use holds a volume or a reserved entry. -/
theorem mem_reservedEntries_iff {r : ReservedEntry} :
    r ∈ reservedEntries lba0 ↔ ∃ i < MbrLayout.entryCount,
      typeByteAt lba0 i ≠ MbrTypes.empty ∧ ¬ HoldsVolume lba0 i ∧
        r = ⟨UInt32.ofNat i, bytes16At lba0 (MbrLayout.entryAt i)⟩ := by
  unfold reservedEntries
  rw [List.mem_filterMap]
  constructor
  · rintro ⟨i, member, found⟩
    simp only [reservedEntryAt] at found
    split at found
    · cases found
    next used =>
      split at found
      · cases found
      next notVolume =>
        exact ⟨i, List.mem_range.mp member, used,
          fun holds => notVolume ⟨holds.1.2, holds.2⟩, (Option.some.inj found).symm⟩
  · rintro ⟨i, bounded, used, notVolume, rfl⟩
    refine ⟨i, List.mem_range.mpr bounded, ?_⟩
    simp only [reservedEntryAt, if_neg used]
    exact if_neg fun holds => notVolume ⟨⟨used, holds.1⟩, holds.2⟩

theorem toNat_slot (bounded : i < MbrLayout.entryCount) : (UInt32.ofNat i).toNat = i :=
  UInt32.toNat_ofNat_of_lt' (Nat.lt_trans bounded (by decide))

/-- A field of the entry survives its way through the byte counts of a partition. -/
theorem toUInt32_mul_div (value : UInt32) :
    (value.toUInt64 * sectorSize / sectorSize).toUInt32 = value := by
  have bound := value.toNat_lt
  have narrow : value.toUInt64.toNat < 2 ^ 55 := by
    rw [UInt32.toNat_toUInt64]
    omega
  rw [← UInt32.toNat_inj, UInt64.toNat_toUInt32, UInt64.toNat_div, toNat_lba_mul narrow,
    toNat_sectorSize, Nat.mul_div_cancel _ (by decide), UInt32.toNat_toUInt64,
    Nat.mod_eq_of_lt bound]

/-- Sixteen bytes whose fields are all written back, but for the first. -/
theorem applyAll_entryFields {old : List UInt8} (width : old.length = MbrLayout.entrySize)
    (status : UInt8) :
    applyAll [⟨0, [status]⟩, ⟨1, slice old 1 3⟩, ⟨5, slice old 5 3⟩,
        ⟨MbrLayout.typeByte, [byteAt old MbrLayout.typeByte]⟩,
        ⟨MbrLayout.startLba, slice old MbrLayout.startLba 4⟩,
        ⟨MbrLayout.sectorCount, slice old MbrLayout.sectorCount 4⟩] emptyEntry =
      status :: old.drop 1 := by
  match old, width with
  | [_, _, _, _, _, _, _, _, _, _, _, _, _, _, _, _], _ => rfl

/-- The entry of an unedited volume is the old one with its status byte cut to the
active flag. -/
theorem mbrImage_slotVolume (width : lba0.length = 512) (bounded : i < MbrLayout.entryCount)
    (holds : HoldsVolume lba0 i) :
    mbrImage lba0 (slotVolume lba0 size i, UInt32.ofNat i) =
      (if byteAt lba0 (MbrLayout.entryAt i) &&& 0x80 != 0 then statusActive else 0x00) ::
        (sectorEntry lba0 i).drop 1 := by
  have entryWidth := length_sectorEntry width i bounded
  have old : slice lba0 (MbrLayout.entryAt (UInt32.ofNat i).toNat) MbrLayout.entrySize =
      sectorEntry lba0 i := by
    rw [toNat_slot bounded]
    rfl
  have type : byteAt (sectorEntry lba0 i) MbrLayout.typeByte = typeByteAt lba0 i :=
    byteAt_sectorEntry (by decide)
  have start : slice (sectorEntry lba0 i) MbrLayout.startLba 4 =
      u32Bytes ((slotVolume lba0 size i).start / sectorSize).toUInt32 := by
    rw [← u32Bytes_u32At (by rw [entryWidth]; decide), u32At_sectorEntry (by decide)]
    exact congrArg u32Bytes (toUInt32_mul_div _).symm
  have count : slice (sectorEntry lba0 i) MbrLayout.sectorCount 4 =
      u32Bytes ((slotVolume lba0 size i).length / sectorSize).toUInt32 := by
    rw [← u32Bytes_u32At (by rw [entryWidth]; decide), u32At_sectorEntry (by decide)]
    exact congrArg u32Bytes (toUInt32_mul_div _).symm
  have kept : keptChs (sectorEntry lba0 i) (slotVolume lba0 size i) =
      [⟨1, slice (sectorEntry lba0 i) 1 3⟩, ⟨5, slice (sectorEntry lba0 i) 5 3⟩] :=
    if_pos ⟨by rw [type]; exact holds.1.1, start, count⟩
  rw [← applyAll_entryFields entryWidth, type, start, count]
  unfold mbrImage
  simp only [old, slotVolume, PartitionKind.mbrFields]
  unfold mbrEntryWrites
  rw [← slotVolume, kept]
  rfl

/-- The old status byte comes back when it is one of the two a commit writes. -/
theorem mbrImage_eq_sectorEntry_iff (width : lba0.length = 512)
    (bounded : i < MbrLayout.entryCount) (holds : HoldsVolume lba0 i) :
    mbrImage lba0 (slotVolume lba0 size i, UInt32.ofNat i) = sectorEntry lba0 i ↔
      byteAt lba0 (MbrLayout.entryAt i) = 0 ∨
        byteAt lba0 (MbrLayout.entryAt i) = statusActive := by
  have first : byteAt (sectorEntry lba0 i) 0 = byteAt lba0 (MbrLayout.entryAt i) :=
    byteAt_sectorEntry (show 0 < MbrLayout.entrySize by decide)
  have split : sectorEntry lba0 i =
      byteAt lba0 (MbrLayout.entryAt i) :: (sectorEntry lba0 i).drop 1 := by
    rw [← first]
    cases entry : sectorEntry lba0 i with
    | nil =>
        have none := length_sectorEntry width i bounded
        rw [entry] at none
        cases none
    | cons byte rest => rfl
  rw [mbrImage_slotVolume width bounded holds]
  conv_lhs => rw [split]
  rw [List.cons.injEq, List.drop_succ_cons, List.drop_zero, and_iff_left rfl]
  constructor
  · intro same
    rw [← same]
    split
    · exact .inr rfl
    · exact .inl rfl
  · rintro (zero | active)
    · rw [zero]
      rfl
    · rw [active]
      rfl

end Slots

/-! ## The commit -/

section Commits

variable {dev : ByteDevice} {size : UInt64} {plan : MbrPlan}
  (accepted : plan.Accepted dev (parseMbr (slice dev.bytes 0 512) size)
    (reservedEntries (slice dev.bytes 0 512))) {i : Nat} (bounded : i < MbrLayout.entryCount)

include accepted

/-- Every probed volume is seated in the slot it came from. -/
theorem seat_of_slot {seat : Partition × UInt32}
    (member : seat ∈ (parseMbr (slice dev.bytes 0 512) size).zip plan.slots) :
    ∃ i < MbrLayout.entryCount, HoldsVolume (slice dev.bytes 0 512) i ∧
      seat = (slotVolume (slice dev.bytes 0 512) size i, UInt32.ofNat i) := by
  obtain ⟨i, bounded, holds, same⟩ := mem_parseMbr.mp (List.of_mem_zip member).1
  have own : seat.1.slot = some (UInt32.ofNat i) := by
    rw [same]
    rfl
  exact ⟨i, bounded, holds, Prod.ext same (accepted.own_slot seat member _ own)⟩

theorem itemAt_no_volume (holds : ¬ HoldsVolume (slice dev.bytes 0 512) i) :
    itemAt seatIndex ((parseMbr (slice dev.bytes 0 512) size).zip plan.slots) i = none := by
  rw [itemAt_eq_none]
  intro seat member same
  obtain ⟨j, inTable, volume, rfl⟩ := seat_of_slot accepted member
  change (UInt32.ofNat j).toNat = i at same
  rw [toNat_slot inTable] at same
  exact holds (same ▸ volume)

include bounded

theorem itemAt_volume (holds : HoldsVolume (slice dev.bytes 0 512) i) :
    itemAt seatIndex ((parseMbr (slice dev.bytes 0 512) size).zip plan.slots) i =
      some (slotVolume (slice dev.bytes 0 512) size i, UInt32.ofNat i) := by
  have listed : slotVolume (slice dev.bytes 0 512) size i ∈
      parseMbr (slice dev.bytes 0 512) size := mem_parseMbr.mpr ⟨i, bounded, holds, rfl⟩
  rw [← List.map_fst_zip (Nat.le_of_eq accepted.length_slots.symm)] at listed
  obtain ⟨seat, member, same⟩ := List.mem_map.mp listed
  have own : seat.1.slot = some (UInt32.ofNat i) := by
    rw [same]
    rfl
  have placed : seat = (slotVolume (slice dev.bytes 0 512) size i, UInt32.ofNat i) :=
    Prod.ext same (accepted.own_slot seat member _ own)
  have found := itemAt_of_mem accepted.seating.distinct member
  rw [placed] at found
  rwa [show seatIndex (slotVolume (slice dev.bytes 0 512) size i, UInt32.ofNat i) = i from
    toNat_slot bounded] at found

/-- What the commit puts into a slot is what was there, exactly when the slot says
nothing the set forgets. -/
theorem tableBlock_eq_sectorEntry_iff :
    tableBlock (slice dev.bytes 0 512) (reservedEntries (slice dev.bytes 0 512))
        ((parseMbr (slice dev.bytes 0 512) size).zip plan.slots) i =
        sectorEntry (slice dev.bytes 0 512) i ↔
      Restorable (slice dev.bytes 0 512) i := by
  have width : (slice dev.bytes 0 512).length = 512 :=
    length_slice (by have := accepted.large; omega)
  unfold tableBlock
  by_cases holds : HoldsVolume (slice dev.bytes 0 512) i
  · -- A volume: all but the status byte comes back.
    rw [itemAt_volume accepted bounded holds, Option.map_some, Option.getD_some,
      mbrImage_eq_sectorEntry_iff width bounded holds]
    exact ⟨fun status => ⟨fun empty => absurd empty holds.1.1, fun _ => status⟩,
      fun restorable => restorable.status holds⟩
  · rw [itemAt_no_volume accepted holds, Option.map_none, Option.getD_none]
    unfold keptBlock
    by_cases used : typeByteAt (slice dev.bytes 0 512) i = MbrTypes.empty
    · -- An unused slot comes back as zeros.
      have nobody : itemAt reservedIndex (reservedEntries (slice dev.bytes 0 512)) i = none := by
        rw [itemAt_eq_none]
        intro r member same
        obtain ⟨j, inTable, occupied, _, rfl⟩ := mem_reservedEntries_iff.mp member
        change (UInt32.ofNat j).toNat = i at same
        rw [toNat_slot inTable] at same
        exact occupied (same ▸ used)
      rw [nobody]
      exact ⟨fun zeros => ⟨fun _ => zeros.symm, fun volume => absurd volume holds⟩,
        fun restorable => (restorable.unused used).symm⟩
    · -- A reserved entry comes back byte for byte.
      have kept := itemAt_of_mem accepted.seating.reserved_distinct
        (mem_reservedEntries_iff.mpr ⟨i, bounded, used, holds, rfl⟩)
      rw [show reservedIndex ⟨UInt32.ofNat i, bytes16At (slice dev.bytes 0 512)
        (MbrLayout.entryAt i)⟩ = i from toNat_slot bounded] at kept
      rw [kept]
      exact ⟨fun _ => ⟨fun empty => absurd empty used, fun volume => absurd volume holds⟩,
        fun _ => bytes_reserved width bounded rfl⟩

end Commits

/-- A device is what it was when its LBA 0 is. -/
theorem bytes_committed_eq_iff {dev : ByteDevice} {partitions : List Partition}
    {reserved : List ReservedEntry} {plan : MbrPlan}
    (accepted : plan.Accepted dev partitions reserved) :
    (plan.committed accepted).bytes = dev.bytes ↔ plan.sector = slice dev.bytes 0 512 := by
  constructor
  · intro same
    rw [← slice_mbrCommitted_sector accepted, same]
  · intro same
    change splice dev.bytes 0 plan.sector = dev.bytes
    rw [same]
    exact splice_slice_self (by have := accepted.large; omega)

/-- Committing a probed MBR set without an edit leaves every byte of the device as it
was, exactly when each slot of the table can be restored. -/
theorem unedited_mbr_unchanged_iff (crc32 : List UInt8 → UInt32) {dev after : ByteDevice}
    {set : PartitionSet} (read : PartitionSet.fromProbe crc32 dev = .ok set)
    (mbr : set.tableKind = .mbr) (committed : (set.commit crc32).exec dev = (.ok (), after)) :
    after.bytes = dev.bytes ↔
      ∀ i < MbrLayout.entryCount, Restorable (slice dev.bytes 0 512) i := by
  obtain ⟨found, kept⟩ := fromProbe_mbr read mbr
  have width : (slice dev.bytes 0 512).length = 512 :=
    length_slice (by have := found.large; omega)
  obtain ⟨plan, accepted, _, rfl⟩ := plan_of_commitMbr crc32 mbr committed
  rw [bytes_committed_eq_iff accepted, accepted.sector_eq]
  have slots := accepted
  rw [found.parts_eq, kept] at slots ⊢
  have old := mbrSector_of_signed width found.signed
  rw [slice_slice (by decide)] at old
  conv_lhs => rhs; rw [← old]
  rw [mbrSector_inj (length_tableBlock _ _ _) (length_sectorEntry width)]
  exact forall₂_congr fun i bounded => tableBlock_eq_sectorEntry_iff slots bounded

/-! ## A table with a deleted entry -/

/-- Two sectors: a volume of one sector, and an entry that was deleted by clearing its
type byte. -/
def deletedDisk : ByteDevice where
  bytes := List.replicate 446 0 ++
    [0, 0, 0, 0, 0x83, 0, 0, 0, 1, 0, 0, 0, 1, 0, 0, 0,
      0, 0, 0, 0, 0, 0, 0, 0, 2, 0, 0, 0, 1, 0, 0, 0] ++
    List.replicate 32 0 ++ [0x55, 0xAA] ++ List.replicate 512 0
  writable := true
  flushed := .ok ()
  journal := []
  length_lt := by
    simp only [List.length_append, List.length_replicate, List.length_cons, List.length_nil]
    omega

/-- The set of that disk. -/
def deletedSet : PartitionSet :=
  { PartitionSet.emptyMbr 1024 with
    partitions := parseMbr (slice deletedDisk.bytes 0 512) 1024 }

theorem fromProbe_deletedDisk :
    PartitionSet.fromProbe CyclicSums.ieee deletedDisk = .ok deletedSet := by
  have probed : probe CyclicSums.ieee deletedDisk =
      .ok (.mbr, parseMbr (slice deletedDisk.bytes 0 512) 1024) := by decide +kernel
  have read : BlockRead.read deletedDisk 0 512 = .ok (slice deletedDisk.bytes 0 512) :=
    read_of_le (by decide +kernel)
  have size : deletedDisk.toBlockRead.sizeBytes = 1024 := by decide +kernel
  have reserved : reservedEntries (slice deletedDisk.bytes 0 512) = [] := by decide +kernel
  unfold PartitionSet.fromProbe
  rw [probed, ok_bind]
  simp only [read, ok_bind, size, reserved]
  rfl

/-- Its unedited commit succeeds and clears what was left of the deleted entry. -/
theorem unedited_deletedDisk_changed :
    PartitionSet.fromProbe CyclicSums.ieee deletedDisk = .ok deletedSet ∧
      deletedSet.tableKind = .mbr ∧
      ∃ after, (deletedSet.commit CyclicSums.ieee).exec deletedDisk = (.ok (), after) ∧
        after.bytes ≠ deletedDisk.bytes := by
  have planned : (mbrPlan deletedDisk deletedSet.partitions deletedSet.reserved).map
      (fun plan => decide (plan.sector = slice deletedDisk.bytes 0 512)) = .ok false := by
    decide +kernel
  refine ⟨fromProbe_deletedDisk, rfl, ?_⟩
  cases made : mbrPlan deletedDisk deletedSet.partitions deletedSet.reserved with
  | error error =>
      rw [made] at planned
      cases planned
  | ok plan =>
      rw [made] at planned
      refine ⟨_, commitMbr_of_plan CyclicSums.ieee rfl made rfl, ?_⟩
      rw [Ne, bytes_committed_eq_iff]
      exact of_decide_eq_false (Except.ok.inj planned)

/-- The hybrid disk has nothing a commit would lose. -/
theorem unedited_hybridDisk_unchanged :
    ∃ after, (hybridSet.commit CyclicSums.ieee).exec hybridDisk = (.ok (), after) ∧
      after.bytes = hybridDisk.bytes := by
  have planned : (mbrPlan hybridDisk hybridSet.partitions hybridSet.reserved).map
      MbrPlan.slots = .ok [0, 2] := by decide +kernel
  have restorable : ∀ i < MbrLayout.entryCount,
      (typeByteAt (slice hybridDisk.bytes 0 512) i = MbrTypes.empty →
        sectorEntry (slice hybridDisk.bytes 0 512) i = emptyEntry) ∧
      byteAt (slice hybridDisk.bytes 0 512) (MbrLayout.entryAt i) = 0 := by
    decide +kernel
  cases made : mbrPlan hybridDisk hybridSet.partitions hybridSet.reserved with
  | error error =>
      rw [made] at planned
      cases planned
  | ok plan =>
      have committed := commitMbr_of_plan CyclicSums.ieee rfl made rfl
      exact ⟨_, committed, (unedited_mbr_unchanged_iff CyclicSums.ieee fromProbe_hybridDisk rfl
        committed).mpr fun i bounded =>
          ⟨(restorable i bounded).1, fun _ => .inl (restorable i bounded).2⟩⟩

end DiskPartitions
