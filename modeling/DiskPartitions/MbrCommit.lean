import DiskPartitions.MbrSectors
import DiskPartitions.TableProbe

/-!
# What an MBR commit does

A call to the writer settles everything before its one write.  A refused plan
leaves the device alone, and an accepted one replaces LBA 0, whose volumes a
probe then finds, as long as nothing else on the disk comes first.
-/

namespace DiskPartitions

open Slices LittleEndian CheckedWords Refusals WriteJournal KeyOrder FallibleState

/-- What a call to the writer has settled before its write. -/
structure MbrPlan where
  slots : List UInt32
  sector : List UInt8
  deriving DecidableEq

/-- The checks of a commit, in order, with what they leave for the write. -/
def mbrPlan (dev : ByteDevice) (partitions : List Partition) (reserved : List ReservedEntry) :
    Except Error MbrPlan := do
  refuseIf (dev.writable = false) (.block .readOnly)
  refuseIf (MbrLayout.entryCount < partitions.length + reserved.length)
    (.invalid "MBR supports at most 4 primary partitions")
  refuseIf (dev.sizeBytes < sectorSize) .deviceTooSmall
  let spans ← partitions.mapM (validatedMbrSpan dev.sizeBytes)
  refuseIf (neighboursOverlap ((spans ++ reserved.filterMap ReservedEntry.span).insertionSort
    SpanLe) = true) (.invalid "partitions overlap")
  let slots ← assignSlotsWithTaken partitions (UInt32.ofNat MbrLayout.entryCount)
    (reserved.map ReservedEntry.slot)
  let existing ← (dev.readAt 0 512).mapError .block
  let sector ← buildMbr existing reserved (partitions.zip slots)
  return ⟨slots, sector⟩

/-- What an accepted plan is: everybody seated in a slot of their own, and the sector
those seats give. -/
structure MbrPlan.Accepted (plan : MbrPlan) (dev : ByteDevice) (partitions : List Partition)
    (reserved : List ReservedEntry) : Prop where
  large : 512 ≤ dev.bytes.length
  length_slots : plan.slots.length = partitions.length
  own_slot : ∀ seat ∈ partitions.zip plan.slots, ∀ slot, seat.1.slot = some slot →
    seat.2 = slot
  fits : ∀ p ∈ partitions, p.FitsMbr dev.bytes.length
  seating : MbrSeating reserved (partitions.zip plan.slots)
  sector_eq : plan.sector = mbrSector (slice dev.bytes 0 MbrLayout.tableStart)
    (tableBlock (slice dev.bytes 0 512) reserved (partitions.zip plan.slots)) [0x55, 0xAA]

/-- A call to the writer is its plan followed by the plan's write. -/
theorem planned_writeMbrAssigningSlots (dev : ByteDevice) (partitions : List Partition)
    (reserved : List ReservedEntry) :
    Fallible.Planned (writeMbrAssigningSlots partitions reserved)
      (mbrPlan dev partitions reserved)
      (fun plan => do
        DeviceM.writeAt 0 plan.sector
        return plan.slots) dev := by
  unfold writeMbrAssigningSlots mbrPlan Fallible.Planned
  rw [Fallible.exec_current_bind]
  refine Fallible.Planned.check fun _ => ?_
  refine Fallible.Planned.check fun _ => ?_
  refine Fallible.Planned.check fun _ => ?_
  refine Fallible.Planned.check fun spans => ?_
  refine Fallible.Planned.check fun _ => ?_
  refine Fallible.Planned.check fun slots => ?_
  refine DeviceM.planned_read fun existing => ?_
  refine Fallible.Planned.check fun sector => ?_
  rfl

theorem seating_of_assignSlots {partitions : List Partition} {reserved : List ReservedEntry}
    {slots : List UInt32}
    (assigned : assignSlotsWithTaken partitions (UInt32.ofNat MbrLayout.entryCount)
      (reserved.map ReservedEntry.slot) = .ok slots)
    (kinds : ∀ p ∈ partitions, ∃ typeByte active, p.kind = .mbr typeByte active) :
    MbrSeating reserved (partitions.zip slots) := by
  obtain ⟨lengthSlots, nodup, inTable, _⟩ := assignSlotsWithTaken_eq_ok assigned
  have injective : Function.Injective UInt32.toNat := fun a b same => UInt32.toNat_inj.mp same
  rw [List.nodup_append] at nodup
  obtain ⟨seatsNodup, reservedNodup, apart⟩ := nodup
  have indices : (partitions.zip slots).map seatIndex = slots.map UInt32.toNat := by
    conv_rhs => rw [← List.map_snd_zip (Nat.le_of_eq lengthSlots), List.map_map]
    rfl
  have bound : ∀ slot ∈ slots ++ reserved.map ReservedEntry.slot,
      slot.toNat < MbrLayout.entryCount := inTable
  exact {
    distinct := by
      rw [indices]
      exact seatsNodup.map injective
    reserved_distinct := by
      have mapped := reservedNodup.map injective
      rwa [List.map_map] at mapped
    apart := by
      intro seat member r present same
      exact apart seat.2 (List.of_mem_zip member).2 r.slot (List.mem_map_of_mem present)
        (injective same.symm)
    bounded := fun seat member =>
      bound seat.2 (List.mem_append_left _ (List.of_mem_zip member).2)
    reserved_bounded := fun r present =>
      bound r.slot (List.mem_append_right _ (List.mem_map_of_mem present))
    kinds := fun seat member => kinds seat.1 (List.of_mem_zip member).1 }

theorem mapM_validatedMbrSpan {totalBytes : UInt64} {partitions : List Partition}
    {spans : List (UInt64 × UInt64)}
    (validated : partitions.mapM (validatedMbrSpan totalBytes) = .ok spans) :
    ∀ p ∈ partitions, p.FitsMbr totalBytes.toNat := by
  have pairs := mapM_eq_ok validated
  clear validated
  induction pairs with
  | nil => simp
  | cons head _ ih =>
      obtain ⟨_, valid, _⟩ := bind_eq_ok.mp head
      rw [List.forall_mem_cons]
      exact ⟨validateMbrPartition_eq_ok.mp valid, ih⟩

section Commits

variable {dev : ByteDevice} {partitions : List Partition} {reserved : List ReservedEntry}

theorem large_of_not_lt (large : ¬ dev.sizeBytes < sectorSize) : 512 ≤ dev.bytes.length := by
  rw [UInt64.lt_iff_toNat_lt, ByteDevice.toNat_sizeBytes, toNat_sectorSize] at large
  omega

theorem slots_of_mbrPlan {plan : MbrPlan} (planned : mbrPlan dev partitions reserved = .ok plan) :
    assignSlotsWithTaken partitions (UInt32.ofNat MbrLayout.entryCount)
      (reserved.map ReservedEntry.slot) = .ok plan.slots := by
  obtain ⟨_, planned⟩ := refuseIf_bind_eq_ok.mp planned
  obtain ⟨_, planned⟩ := refuseIf_bind_eq_ok.mp planned
  obtain ⟨_, planned⟩ := refuseIf_bind_eq_ok.mp planned
  obtain ⟨_, _, planned⟩ := bind_eq_ok.mp planned
  obtain ⟨_, planned⟩ := refuseIf_bind_eq_ok.mp planned
  obtain ⟨slots, assigned, planned⟩ := bind_eq_ok.mp planned
  obtain ⟨_, _, planned⟩ := bind_eq_ok.mp planned
  obtain ⟨_, _, planned⟩ := bind_eq_ok.mp planned
  cases planned
  exact assigned

theorem mbrPlan_eq_ok {plan : MbrPlan} (planned : mbrPlan dev partitions reserved = .ok plan) :
    plan.Accepted dev partitions reserved := by
  obtain ⟨_, planned⟩ := refuseIf_bind_eq_ok.mp planned
  obtain ⟨_, planned⟩ := refuseIf_bind_eq_ok.mp planned
  obtain ⟨large, planned⟩ := refuseIf_bind_eq_ok.mp planned
  obtain ⟨spans, validated, planned⟩ := bind_eq_ok.mp planned
  obtain ⟨_, planned⟩ := refuseIf_bind_eq_ok.mp planned
  obtain ⟨slots, assigned, planned⟩ := bind_eq_ok.mp planned
  obtain ⟨existing, read, planned⟩ := bind_eq_ok.mp planned
  obtain ⟨sector, built, planned⟩ := bind_eq_ok.mp planned
  cases planned
  have enough := large_of_not_lt large
  have fits := mapM_validatedMbrSpan validated
  rw [ByteDevice.toNat_sizeBytes] at fits
  have seating := seating_of_assignSlots assigned fun p member => (fits p member).kind
  obtain ⟨lengthSlots, _, _, own⟩ := assignSlotsWithTaken_eq_ok assigned
  rw [ByteDevice.readAt_of_le (by omega)] at read
  cases read
  rw [buildMbr_eq (length_slice (by omega)) seating, slice_slice (by decide)] at built
  exact {
    large := enough
    length_slots := lengthSlots
    own_slot := own
    fits
    seating
    sector_eq := (Except.ok.inj built).symm }

section Accepted

variable {plan : MbrPlan} (accepted : plan.Accepted dev partitions reserved)

include accepted

theorem length_boot :
    (slice dev.bytes 0 MbrLayout.tableStart).length = MbrLayout.tableStart :=
  length_slice (Nat.le_trans (by decide) accepted.large)

theorem length_sector : plan.sector.length = 512 := by
  rw [accepted.sector_eq, mbrSector, List.length_append, List.length_append,
    length_boot accepted, length_entries (length_tableBlock _ _ _)]
  rfl

theorem sector_inside : Write.Inside ⟨0, plan.sector⟩ dev.bytes.length := by
  change 0 + plan.sector.length ≤ dev.bytes.length
  rw [length_sector accepted, Nat.zero_add]
  exact accepted.large

/-- The device an accepted plan leaves. -/
def MbrPlan.committed (plan : MbrPlan) (accepted : plan.Accepted dev partitions reserved) :
    ByteDevice :=
  dev.written ⟨0, plan.sector⟩ (sector_inside accepted)

theorem length_mbrCommitted : (plan.committed accepted).bytes.length = dev.bytes.length :=
  Write.length_apply (sector_inside accepted)

theorem slice_mbrCommitted_sector :
    slice (plan.committed accepted).bytes 0 512 = plan.sector := by
  have held : slice (splice dev.bytes 0 plan.sector) 0 plan.sector.length = plan.sector :=
    slice_splice_self (sector_inside accepted)
  rw [length_sector accepted] at held
  exact held

/-- Past LBA 0 the device is as it was. -/
theorem slice_mbrCommitted_rest {start len : Nat} (past : 512 ≤ start) :
    slice (plan.committed accepted).bytes start len = slice dev.bytes start len := by
  refine slice_splice_disjoint (sector_inside accepted) (.inr ?_)
  change 0 + plan.sector.length ≤ start
  rw [length_sector accepted]
  omega

theorem hasGptSignature_mbrCommitted :
    (plan.committed accepted).HasGptSignature ↔ dev.HasGptSignature := by
  unfold ByteDevice.HasGptSignature
  rw [length_mbrCommitted accepted, slice_mbrCommitted_rest accepted (Nat.le_refl _)]

theorem looksLike4knGpt_mbrCommitted (crc32 : List UInt8 → UInt32) :
    looksLike4knGpt crc32 (plan.committed accepted) = looksLike4knGpt crc32 dev := by
  have same : (plan.committed accepted).toBlockRead.readAt fourKLba1 4096 =
      dev.toBlockRead.readAt fourKLba1 4096 := by
    change (plan.committed accepted).readAt fourKLba1 4096 = dev.readAt fourKLba1 4096
    unfold ByteDevice.readAt
    rw [length_mbrCommitted accepted, slice_mbrCommitted_rest accepted (by decide)]
  unfold looksLike4knGpt
  rw [same]

theorem hasBootSignature_sector : hasBootSignature plan.sector = true := by
  have headLength : (slice dev.bytes 0 MbrLayout.tableStart ++ blocks (tableBlock
      (slice dev.bytes 0 512) reserved (partitions.zip plan.slots))
        MbrLayout.entryCount).length = 510 := by
    rw [List.length_append, length_boot accepted, length_entries (length_tableBlock _ _ _)]
    rfl
  have first : byteAt plan.sector 510 = 0x55 := by
    rw [accepted.sector_eq]
    refine byteAt_of_slice ?_
    rw [mbrSector, slice_append_right (by rw [headLength]), headLength]
    rfl
  have second : byteAt plan.sector 511 = 0xAA := by
    rw [accepted.sector_eq]
    refine byteAt_of_slice ?_
    rw [mbrSector, slice_append_right (by rw [headLength]; omega), headLength]
    rfl
  simp [hasBootSignature, first, second]

/-- The volumes a probe of the committed sector finds. -/
theorem parseMbr_sector (hidden : ∀ r ∈ reserved, r.Hidden) :
    parseMbr plan.sector dev.sizeBytes = mbrVolumes (partitions.zip plan.slots) := by
  rw [accepted.sector_eq]
  refine parseMbr_built (length_boot accepted) (fun seat member => ?_) hidden
  rw [ByteDevice.toNat_sizeBytes]
  exact accepted.fits seat.1 (List.of_mem_zip member).1

/-- A probe of the committed device, when no GPT signature comes first. -/
theorem probeInner_mbrCommitted (crc32 : List UInt8 → UInt32) (consultBackup : Bool)
    (unsigned : ¬ dev.HasGptSignature) :
    probeInner crc32 (plan.committed accepted) consultBackup =
      probeMbr crc32 (plan.committed accepted) consultBackup plan.sector := by
  rw [probeInner_of_no_signature crc32 consultBackup
    (by rw [length_mbrCommitted accepted]; exact accepted.large)
    (by rwa [hasGptSignature_mbrCommitted accepted]), slice_mbrCommitted_sector accepted]

/-- The 4Kn check of a probe sees what it saw before the commit. -/
theorem not4kn_mbrCommitted (crc32 : List UInt8 → UInt32)
    (sectors512 : hasGptMarker plan.sector = true → looksLike4knGpt crc32 dev = none) :
    (if hasGptMarker plan.sector = true then
      looksLike4knGpt crc32 (plan.committed accepted) else none) = none := by
  split
  next marker => rw [looksLike4knGpt_mbrCommitted accepted, sectors512 marker]
  next => rfl

theorem probeMbr_mbrCommitted (crc32 : List UInt8 → UInt32) (consultBackup : Bool)
    (hidden : ∀ r ∈ reserved, r.Hidden)
    (sectors512 : hasGptMarker plan.sector = true → looksLike4knGpt crc32 dev = none)
    (table : isProtective plan.sector = false) :
    probeMbr crc32 (plan.committed accepted) consultBackup plan.sector =
      .ok (.mbr, mbrVolumes (partitions.zip plan.slots), .mbr) := by
  have reported : (plan.committed accepted).toBlockRead.sizeBytes = dev.sizeBytes := by
    rw [← UInt64.toNat_inj]
    change (plan.committed accepted).sizeBytes.toNat = dev.sizeBytes.toNat
    rw [ByteDevice.toNat_sizeBytes, ByteDevice.toNat_sizeBytes, length_mbrCommitted accepted]
  unfold probeMbr
  rw [if_neg (by simp [hasBootSignature_sector accepted]),
    not4kn_mbrCommitted accepted crc32 sectors512, reported, parseMbr_sector accepted hidden]
  simp [table]

end Accepted

/-- An accepted plan is carried out. -/
theorem writeMbr_of_plan {plan : MbrPlan}
    (planned : mbrPlan dev partitions reserved = .ok plan) :
    (writeMbrAssigningSlots partitions reserved).exec dev =
      (.ok plan.slots, plan.committed (mbrPlan_eq_ok planned)) := by
  rw [(planned_writeMbrAssigningSlots dev partitions reserved).accepted planned,
    Fallible.exec_bind, DeviceM.exec_writeAt_of_inside (sector_inside (mbrPlan_eq_ok planned))]
  rfl

/-- A call that succeeds has carried out an accepted plan. -/
theorem plan_of_writeMbr {slots : List UInt32} {after : ByteDevice}
    (written : (writeMbrAssigningSlots partitions reserved).exec dev = (.ok slots, after)) :
    ∃ plan : MbrPlan, ∃ accepted : plan.Accepted dev partitions reserved,
      plan.slots = slots ∧ after = plan.committed accepted := by
  cases planned : mbrPlan dev partitions reserved with
  | error error =>
      rw [(planned_writeMbrAssigningSlots dev partitions reserved).refused planned] at written
      cases written
  | ok plan =>
      rw [writeMbr_of_plan planned] at written
      cases written
      exact ⟨plan, mbrPlan_eq_ok planned, rfl, rfl⟩

/-- A call that fails has written nothing. -/
theorem unchanged_of_writeMbr {error : Error} {after : ByteDevice}
    (refused : (writeMbrAssigningSlots partitions reserved).exec dev = (.error error, after)) :
    after = dev := by
  cases planned : mbrPlan dev partitions reserved with
  | error error =>
      rw [(planned_writeMbrAssigningSlots dev partitions reserved).refused planned] at refused
      cases refused
      rfl
  | ok plan =>
      rw [writeMbr_of_plan planned] at refused
      cases refused

end Commits

end DiskPartitions
