import DiskPartitions.EditedMbr
import DiskPartitions.PlannedSets

/-!
# A planned set commits and reads back

Every set reached from an empty one is accepted by the writer of its table and
found again by the next probe, exactly when each of its partitions has a type the
table can store.  `add` checks that for the named types only: a custom type is
taken as it comes.
-/

namespace DiskPartitions

open Slices LittleEndian CheckedWords Refusals WriteJournal KeyOrder FallibleState

/-- A type that marks neither an unused GPT entry nor anything but an MBR volume. -/
def PartitionKind.Storable : PartitionKind → Prop
  | .gpt typeGuid _ => typeGuid ≠ unusedTypeGuid
  | .mbr typeByte _ => IsVolumeType typeByte
  | .whole => False

/-- A partition as it is found again in a table. -/
def storedIn : TableKind → Partition → UInt32 → Partition
  | .gpt => stored
  | .mbr => storedMbr

/-- The set commits, and the next probe finds its table with exactly its partitions. -/
def CommitsExactly (crc32 : List UInt8 → UInt32) (set : PartitionSet) (dev : ByteDevice) : Prop :=
  ∃ after slots parts, (set.commit crc32).exec dev = (.ok (), after) ∧
    slots.length = set.partitions.length ∧
    probe crc32 after = .ok (set.tableKind, parts) ∧
    parts.Perm (List.zipWith (storedIn set.tableKind) set.partitions slots)

/-- A device of the planned size that takes the set's table: large enough, writable,
and, for an MBR, without a GPT signature at byte 512. -/
structure ReadyFor (dev : ByteDevice) (set : PartitionSet) : Prop where
  size : dev.sizeBytes = set.diskSize
  writable : dev.writable = true
  flushed : dev.flushed = .ok ()
  gpt_fits : set.tableKind = .gpt → 68 * 512 ≤ dev.bytes.length
  mbr_fits : set.tableKind = .mbr → 512 ≤ dev.bytes.length
  unsigned : set.tableKind = .mbr → ¬ dev.HasGptSignature

/-- The sets a caller starts from. -/
inductive PartitionSet.Empty : PartitionSet → Prop
  | gpt (size : UInt64) (drawn : Bytes16) : Empty (emptyGpt size drawn)
  | mbr (size : UInt64) : Empty (emptyMbr size)

/-- A call whose type the set's table can store. -/
def Edit.StorableType (kind : TableKind) : Edit → Prop
  | .add _ _ typeId _ _ =>
      match kind with
      | .gpt => typeId ≠ .gptCustom unusedTypeGuid
      | .mbr => ∀ typeByte, typeId = .mbrCustom typeByte → IsVolumeType typeByte
  | _ => True

/-- A device of 68 sectors or more has room for the canonical table. -/
theorem canonical_usableRange {total : UInt64} (large : 68 ≤ total.toNat) :
    ∃ usable, GptGeometry.canonical.usableRange total = .ok usable := by
  have shaped : GptGeometry.canonical.checkShape = .ok () := by decide
  have room : ¬ total ≤ GptGeometry.canonical.entryLba + GptGeometry.canonical.arraySectors +
      GptGeometry.canonical.backupReserveSectors := by
    have needed : (GptGeometry.canonical.entryLba + GptGeometry.canonical.arraySectors +
      GptGeometry.canonical.backupReserveSectors).toNat = 67 := by decide
    rw [UInt64.le_iff_toNat_le, needed]
    omega
  refine ⟨(GptGeometry.canonical.entryLba + GptGeometry.canonical.arraySectors,
    total - 1 - GptGeometry.canonical.backupReserveSectors), ?_⟩
  unfold GptGeometry.usableRange
  rw [shaped, ok_bind]
  simp only [refuseIf_of_not room, ok_bind]
  rfl

section Agreement

variable {crc32 : List UInt8 → UInt32} {set : PartitionSet} {dev : ByteDevice}
  (held : set.FromScratch) (ready : ReadyFor dev set)

include held ready

theorem fitsMbr_of_laidOut (mbr : set.tableKind = .mbr) {p : Partition}
    (member : p ∈ set.partitions) : p.FitsMbr dev.bytes.length := by
  have laid := held.laid p member
  have range := set.usableRange_lt
  have size := toNat_totalSectors dev
  have positive := laid.length_pos
  have startAligned := laid.start_aligned
  have lengthAligned := laid.length_aligned
  have first := laid.first_le
  have last := laid.end_le
  have one : (1 : UInt64).toNat = 1 := rfl
  have two : (2 : UInt64).toNat = 2 := rfl
  have usable : set.usableRange.1 = 1 ∧
      set.usableRange.2.toNat + 1 ≤ max 1 (dev.bytes.length / 512) := by
    simp only [PartitionSet.usableRange, mbr, ← ready.size]
    split
    · exact ⟨rfl, by simp⟩
    next large =>
      rw [UInt64.lt_iff_toNat_lt, two, size] at large
      refine ⟨rfl, ?_⟩
      have lastLba : (dev.sizeBytes / sectorSize - 1).toNat = dev.bytes.length / 512 - 1 := by
        rw [toNat_sub_of_le (by omega), size, one]
      simp only [UInt64.toNat_min]
      omega
  rw [usable.1, one] at first
  obtain ⟨kind, firstLt, sectorsLt⟩ := laid.mbr mbr
  exact ⟨kind, positive, startAligned, lengthAligned, by omega, firstLt, sectorsLt, by omega⟩

omit ready in
theorem fitsGpt_of_laidOut (gpt : set.tableKind = .gpt) {p : Partition}
    (member : p ∈ set.partitions) (storable : p.kind.Storable) :
    p.FitsGpt set.usableRange := by
  have laid := held.laid p member
  have range := set.usableRange_lt
  have positive := laid.length_pos
  have last := laid.end_le
  obtain ⟨⟨typeGuid, attributes, kind⟩, _⟩ := laid.gpt gpt
  rw [kind] at storable
  exact ⟨⟨typeGuid, attributes, kind, storable⟩, positive, laid.start_aligned,
    laid.length_aligned, by omega, laid.first_le, last⟩

theorem usableRange_gpt (gpt : set.tableKind = .gpt) :
    set.gptGeometry.usableRange (dev.sizeBytes / sectorSize) = .ok set.usableRange := by
  have large := ready.gpt_fits gpt
  obtain ⟨usable, range⟩ : ∃ usable,
      GptGeometry.canonical.usableRange (dev.sizeBytes / sectorSize) = .ok usable :=
    canonical_usableRange (by rw [toNat_totalSectors]; omega)
  have reported : set.usableRange = usable := by
    simp only [PartitionSet.usableRange, gpt, ← ready.size, held.geometry, range]
  rw [held.geometry, range, reported]

/-- Storable types are enough. -/
theorem commitsExactly_of_storable (storable : ∀ p ∈ set.partitions, p.kind.Storable) :
    CommitsExactly crc32 set dev := by
  have fresh : ∀ p ∈ set.partitions, p.slot = none := fun p member => (held.laid p member).slot
  unfold CommitsExactly
  cases table : set.tableKind with
  | gpt =>
      obtain ⟨plan, planned⟩ := exists_gptPlan ready.writable fresh held.apart
        set.gptEntryTails (usableRange_gpt held ready table) (held.gpt_few table)
        (fun p member => fitsGpt_of_laidOut held table member (storable p member))
        (fun p member => ((held.laid p member).gpt table).2)
      have accepted := gptPlan_eq_ok planned
      have written : (set.writeTable crc32).exec dev =
          (.ok plan.slots, plan.committed crc32 set.diskGuid accepted) := by
        unfold PartitionSet.writeTable
        rw [table, held.reserved]
        exact writeGpt_of_plan crc32 planned
      have flushed : (plan.committed crc32 set.diskGuid accepted).flushed = .ok () :=
        ready.flushed
      refine ⟨_, plan.slots, _, PartitionSet.commit_of_writeAndFlush crc32
        (PartitionSet.writeAndFlush_of_writeTable crc32 written flushed), accepted.length_slots,
        ?_, storedBySlot_perm accepted⟩
      rw [(probe_committed crc32 set.diskGuid accepted).1]
  | mbr =>
      obtain ⟨plan, planned⟩ := exists_mbrPlan ready.writable fresh held.apart
        (ready.mbr_fits table) (held.mbr_few table)
        (fun p member => fitsMbr_of_laidOut held ready table member)
      rw [← held.reserved] at planned
      have accepted := mbrPlan_eq_ok planned
      have volumes : ∀ p ∈ set.partitions, p.IsMbrVolume := by
        intro p member
        obtain ⟨⟨typeByte, active, kind⟩, _⟩ := (held.laid p member).mbr table
        have volume := storable p member
        rw [kind] at volume
        exact (Partition.isMbrVolume_iff kind).mpr volume
      refine ⟨_, plan.slots, _, commitMbr_of_plan crc32 table planned ready.flushed,
        accepted.length_slots, ?_, mbrVolumes_perm accepted.seating volumes⟩
      rw [probe, probeInner_new_mbr crc32 held.reserved volumes (ready.unsigned table)]
      rfl

end Agreement

/-- Every partition has a seat. -/
theorem exists_seat {partitions : List Partition} {slots : List UInt32}
    (sameLength : slots.length = partitions.length) {p : Partition} (member : p ∈ partitions) :
    ∃ slot, (p, slot) ∈ partitions.zip slots := by
  obtain ⟨i, bound, rfl⟩ := List.mem_iff_getElem.mp member
  refine ⟨slots[i], List.mem_iff_getElem.mpr ⟨i, ?_, ?_⟩⟩
  · rw [List.length_zip]
    omega
  · rw [List.getElem_zip]

/-- Storable types are needed. -/
theorem storable_of_commitsExactly {crc32 : List UInt8 → UInt32} {set : PartitionSet}
    {dev : ByteDevice} (exactly : CommitsExactly crc32 set dev) :
    ∀ p ∈ set.partitions, p.kind.Storable := by
  obtain ⟨after, slots, parts, committed, lengthSlots, probed, perm⟩ := exactly
  intro p member
  cases table : set.tableKind with
  | gpt =>
      obtain ⟨written, flushed⟩ := PartitionSet.commit_eq_ok crc32 committed
      have done := PartitionSet.writeAndFlush_eq_ok crc32 flushed
      unfold PartitionSet.writeTable at done
      rw [table] at done
      obtain ⟨plan, accepted, _⟩ := plan_of_writeGpt crc32 done
      obtain ⟨slot, seated⟩ := exists_seat accepted.length_slots member
      obtain ⟨typeGuid, attributes, kind, used⟩ := (accepted.seating.fits (p, slot) seated).kind
      simp only at kind
      rw [kind]
      exact used
  | mbr =>
      rw [table] at probed perm
      obtain ⟨slot, seated⟩ := exists_seat lengthSlots member
      rw [← List.map_uncurry_zip_eq_zipWith] at perm
      have found : storedMbr p slot ∈ parts :=
        perm.mem_iff.mpr (List.mem_map.mpr ⟨(p, slot), seated, rfl⟩)
      rw [(probedMbr_of_probe probed).parts_eq] at found
      obtain ⟨typeByte, active, kind, volume⟩ := (isMbrVolume_of_parseMbr found).typeByte
      change p.kind = .mbr typeByte active at kind
      rw [kind]
      exact volume

theorem storable_newKind {set : PartitionSet} {startHint : Option UInt64} {length : UInt64}
    {typeId : PartitionTypeId} {label : Option String} {drawn : Bytes16} {kind : PartitionKind}
    (storable : (Edit.add startHint length typeId label drawn).StorableType set.tableKind)
    (made : set.newKind typeId = .ok kind) : kind.Storable := by
  unfold PartitionSet.newKind at made
  cases table : set.tableKind with
  | gpt =>
      rw [table] at made storable
      obtain ⟨typeGuid, encoded, made⟩ := bind_eq_ok.mp made
      cases made
      change typeGuid ≠ unusedTypeGuid
      cases typeId with
      | gptCustom guid =>
          cases encoded
          exact fun unused => storable (congrArg _ unused)
      | mbrCustom typeByte => cases encoded
      | efiSystem => cases encoded; decide
      | microsoftBasicData => cases encoded; decide
      | linuxFilesystem => cases encoded; decide
      | linuxSwap => cases encoded; decide
      | appleHfsPlus => cases encoded; decide
      | appleApfs => cases encoded; decide
  | mbr =>
      rw [table] at made storable
      obtain ⟨typeByte, encoded, made⟩ := bind_eq_ok.mp made
      cases made
      change IsVolumeType typeByte
      by_cases custom : ∃ own, typeId = .mbrCustom own
      · obtain ⟨own, rfl⟩ := custom
        cases encoded
        exact storable typeByte rfl
      · exact isVolumeType_of_named (fun own same => custom ⟨own, same⟩) encoded

/-- Every set reached from an empty one commits and reads back exactly when its
partitions have storable types, which a run of storable additions ensures. -/
theorem planned_set_commits_iff (crc32 : List UInt8 → UInt32) {start : PartitionSet}
    (empty : start.Empty) (edits : List Edit) {dev : ByteDevice}
    (ready : ReadyFor dev (Edit.applyAll edits start)) :
    (CommitsExactly crc32 (Edit.applyAll edits start) dev ↔
      ∀ p ∈ (Edit.applyAll edits start).partitions, p.kind.Storable) ∧
    ((∀ edit ∈ edits, edit.StorableType start.tableKind) →
      CommitsExactly crc32 (Edit.applyAll edits start) dev) := by
  have scratch : (Edit.applyAll edits start).FromScratch := by
    refine Edit.applyAll_induction (P := PartitionSet.FromScratch)
      (fun edit _ set held => PartitionSet.fromScratch_apply held edit) ?_
    cases empty with
    | gpt size drawn => exact PartitionSet.fromScratch_empty _ _ _ _
    | mbr size => exact PartitionSet.fromScratch_empty _ _ _ _
  refine ⟨⟨storable_of_commitsExactly, commitsExactly_of_storable scratch ready⟩, ?_⟩
  intro storable
  apply commitsExactly_of_storable scratch ready
  have kept : (Edit.applyAll edits start).tableKind = start.tableKind ∧
      ∀ p ∈ (Edit.applyAll edits start).partitions, p.kind.Storable := by
    refine Edit.applyAll_induction
      (P := fun set => set.tableKind = start.tableKind ∧ ∀ p ∈ set.partitions, p.kind.Storable)
      (fun edit member set held => ⟨(Edit.sameTable_apply set edit).tableKind.trans held.1,
        Edit.forall_kind_apply held.2 ?_⟩) ⟨rfl, ?_⟩
    · rintro startHint length typeId label drawn kind rfl made
      exact storable_newKind (held.1 ▸ storable _ member) made
    · cases empty <;> simp [PartitionSet.emptyGpt, PartitionSet.emptyMbr]
  exact kept.2

/-! ## A disk of 4 MiB -/

/-- A blank writable device. -/
def blankDevice (size : Nat) (bounded : size < 2 ^ 64) : ByteDevice where
  bytes := List.replicate size 0
  writable := true
  flushed := .ok ()
  journal := []
  length_lt := by rwa [List.length_replicate]

theorem readyFor_blankDevice {set : PartitionSet} {size : Nat} (bounded : size < 2 ^ 64)
    (large : 68 * 512 ≤ size) (planned : set.diskSize.toNat = size)
    (gpt : set.tableKind = .gpt) : ReadyFor (blankDevice size bounded) set where
  size := by
    rw [← UInt64.toNat_inj, planned, ByteDevice.toNat_sizeBytes, blankDevice,
      List.length_replicate]
  writable := rfl
  flushed := rfl
  gpt_fits := fun _ => by rwa [blankDevice, List.length_replicate]
  mbr_fits := fun mbr => by rw [gpt] at mbr; cases mbr
  unsigned := fun mbr => by rw [gpt] at mbr; cases mbr

/-- A blank disk of 4 MiB. -/
def fourMib : ByteDevice := blankDevice 4194304 (by omega)

/-- A GPT of 4 MiB with one partition of 1 MiB of the given type. -/
def onePartition (typeId : PartitionTypeId) : PartitionSet :=
  Edit.applyAll [.add none 1 typeId (some "a") unusedTypeGuid]
    (PartitionSet.emptyGpt 4194304 unusedTypeGuid)

theorem sameTable_onePartition (typeId : PartitionTypeId) :
    Edit.SameTable (PartitionSet.emptyGpt 4194304 unusedTypeGuid) (onePartition typeId) :=
  Edit.sameTable_applyAll _ _

theorem readyFor_onePartition (typeId : PartitionTypeId) :
    ReadyFor fourMib (onePartition typeId) := by
  have same := sameTable_onePartition typeId
  refine readyFor_blankDevice _ (by omega) ?_ same.tableKind
  rw [same.diskSize]
  rfl

theorem gptPlan_unused {dev : ByteDevice} (writable : dev.writable = true)
    (size : dev.sizeBytes = 4194304) (tails : EntryTails) :
    gptPlan dev (onePartition (.gptCustom unusedTypeGuid)).partitions GptGeometry.canonical
      tails [] = .error (.invalid "partition type GUID is the unused sentinel") := by
  have range : GptGeometry.canonical.usableRange (4194304 / sectorSize) = .ok (34, 8158) := by
    decide +kernel
  have room : ¬ GptGeometry.canonical.numEntries.toNat <
      (onePartition (.gptCustom unusedTypeGuid)).partitions.length := by decide +kernel
  have refused : (onePartition (.gptCustom unusedTypeGuid)).partitions.mapM
      (validatedSpan 34 8158) =
        .error (.invalid "partition type GUID is the unused sentinel") := by decide +kernel
  unfold gptPlan
  rw [refuseIf_of_not (by simp [writable]), ok_bind, size, range, ok_bind, refuseIf_of_not room,
    ok_bind]
  simp only [refused, error_bind]

/-- `add` accepts the GUID of unused entries as a custom type, and the commit refuses it. -/
theorem unused_type_planned_and_refused :
    ReadyFor fourMib (onePartition (.gptCustom unusedTypeGuid)) ∧
      (onePartition (.gptCustom unusedTypeGuid)).partitions.map Partition.kind =
        [.gpt unusedTypeGuid 0] ∧
      ((onePartition (.gptCustom unusedTypeGuid)).commit CyclicSums.ieee).exec fourMib =
        (.error (.invalid "partition type GUID is the unused sentinel"), fourMib) ∧
      ¬ CommitsExactly CyclicSums.ieee (onePartition (.gptCustom unusedTypeGuid)) fourMib := by
  have ready := readyFor_onePartition (.gptCustom unusedTypeGuid)
  have kinds : (onePartition (.gptCustom unusedTypeGuid)).partitions.map Partition.kind =
      [.gpt unusedTypeGuid 0] := by decide +kernel
  have written : ((onePartition (.gptCustom unusedTypeGuid)).writeTable CyclicSums.ieee).exec
      fourMib = (.error (.invalid "partition type GUID is the unused sentinel"), fourMib) := by
    have same := sameTable_onePartition (.gptCustom unusedTypeGuid)
    have planned := gptPlan_unused ready.writable (ready.size.trans same.diskSize)
      (onePartition (.gptCustom unusedTypeGuid)).gptEntryTails
    have refused := (planned_writeGptAssigningSlots CyclicSums.ieee fourMib
      (onePartition (.gptCustom unusedTypeGuid)).partitions
      (onePartition (.gptCustom unusedTypeGuid)).diskGuid GptGeometry.canonical
      (onePartition (.gptCustom unusedTypeGuid)).gptEntryTails []).refused planned
    rw [PartitionSet.writeTable_gpt CyclicSums.ieee same.tableKind, same.gptGeometry,
      same.reserved]
    exact refused
  refine ⟨ready, kinds, ?_, fun exactly => ?_⟩
  · exact PartitionSet.commit_of_refused CyclicSums.ieee written
  · obtain ⟨p, member, kind⟩ := List.mem_map.mp
      (show PartitionKind.gpt unusedTypeGuid 0 ∈ _ by rw [kinds]; simp)
    have storable := storable_of_commitsExactly exactly p member
    rw [kind] at storable
    exact storable rfl

/-- A partition of a named type is planned, committed and found. -/
theorem linux_partition_planned_and_found :
    (onePartition .linuxFilesystem).partitions.map (fun p => (p.start, p.length)) =
        [(1048576, 1048576)] ∧
      CommitsExactly CyclicSums.ieee (onePartition .linuxFilesystem) fourMib := by
  refine ⟨by decide +kernel, ?_⟩
  exact (planned_set_commits_iff CyclicSums.ieee
    (PartitionSet.Empty.gpt 4194304 unusedTypeGuid) _
    (readyFor_onePartition .linuxFilesystem)).2 (by simp [Edit.StorableType, PartitionSet.emptyGpt])

end DiskPartitions
