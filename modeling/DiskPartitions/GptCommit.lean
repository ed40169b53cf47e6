import DiskPartitions.CyclicSums
import DiskPartitions.EntryTable
import DiskPartitions.GptHeaders

/-!
# What a GPT commit does

A call to the writer settles everything before its first write: the plan.  A
refused plan leaves the device alone, and an accepted one is five writes, each
inside the device and none meeting another.
-/

namespace DiskPartitions

open Slices LittleEndian CheckedWords Refusals WriteJournal FallibleState

/-- What a call to the writer has settled before its first write. -/
structure GptPlan where
  usable : UInt64 × UInt64
  spans : List (UInt64 × UInt64)
  slots : List UInt32
  array : List UInt8
  lba0 : List UInt8
  deriving DecidableEq

/-- LBA 0 as the commit will write it. -/
def plannedLba0 (dev : ByteDevice) (partitions : List Partition)
    (lba0 : List ReservedEntry) : Except Error (List UInt8) :=
  let mbr := protectiveMbr (dev.sizeBytes / sectorSize)
  if lba0.isEmpty then .ok mbr
  else do
    let current ← (dev.readAt 0 512).mapError .block
    hybridLba0 current lba0 (bytes16At mbr 446) partitions

/-- The checks of a commit, in order, with what they leave for the writes. -/
def gptPlan (dev : ByteDevice) (partitions : List Partition) (g : GptGeometry)
    (tails : EntryTails) (lba0 : List ReservedEntry) : Except Error GptPlan := do
  refuseIf (dev.writable = false) (.block .readOnly)
  let usable ← g.usableRange (dev.sizeBytes / sectorSize)
  refuseIf (g.numEntries.toNat < partitions.length)
    (.invalid "more partitions than the table has entry slots")
  let spans ← partitions.mapM (validatedSpan usable.1 usable.2)
  refuseIf ((markOverlaps spans).any id = true) (.invalid "partitions overlap")
  let slots ← assignSlots partitions g.numEntries
  let array ← buildEntryArray g tails (partitions.zip slots)
  let sector ← plannedLba0 dev partitions lba0
  return ⟨usable, spans, slots, array, sector⟩

/-- The fields of a bare protective MBR. -/
def protectiveWrites (total : UInt64) : List (Write UInt8) :=
  [⟨446, [0x00, 0x00, 0x02, 0x00, MbrTypes.gptProtective]⟩,
    ⟨451, chsForLba (min (total - 1) mbrLbaMax)⟩, ⟨454, u32Bytes 1⟩,
    ⟨458, u32Bytes (min (total - 1) mbrLbaMax).toUInt32⟩, ⟨510, [0x55, 0xAA]⟩]

theorem length_protectiveMbr (total : UInt64) : (protectiveMbr total).length = 512 := by
  have inside : ∀ write ∈ protectiveWrites total, write.Inside 512 := by
    simp [protectiveWrites, Write.Inside]
  change (applyAll (protectiveWrites total) (List.replicate 512 0)).length = 512
  rw [length_applyAll (by rwa [List.length_replicate]), List.length_replicate]

theorem length_keepLba0Entry {rebuild : Bool} {partitions : List Partition}
    {state : List UInt8 × Option Nat} {entry : ReservedEntry}
    (bounded : entry.slot.toNat < MbrLayout.entryCount) (width : state.1.length = 512) :
    (keepLba0Entry rebuild partitions state entry).1.length = 512 := by
  have kept : (splice state.1 (MbrLayout.entryAt entry.slot.toNat) entry.entry.bytes).length =
      512 := by
    unfold MbrLayout.entryCount at bounded
    rw [length_splice, width]
    rw [width, entry.entry.length_bytes, MbrLayout.entryAt, MbrLayout.tableStart,
      MbrLayout.entrySize]
    omega
  simp only [keepLba0Entry]
  split
  · simp only
    split
    · exact kept
    · exact width
  · split
    · exact width
    · exact kept

theorem foldl_keepLba0Entry (rebuild : Bool) (partitions : List Partition)
    {lba0 : List ReservedEntry}
    (bounded : ∀ entry ∈ lba0, entry.slot.toNat < MbrLayout.entryCount)
    (state : List UInt8 × Option Nat) (marker : ∀ slot ∈ state.2, slot < MbrLayout.entryCount)
    (width : state.1.length = 512) :
    (lba0.foldl (keepLba0Entry rebuild partitions) state).1.length = 512 ∧
      ∀ slot ∈ (lba0.foldl (keepLba0Entry rebuild partitions) state).2,
        slot < MbrLayout.entryCount := by
  induction lba0 generalizing state with
  | nil => exact ⟨width, marker⟩
  | cons entry lba0 ih =>
      have own := bounded entry (by simp)
      rw [List.foldl_cons]
      refine ih (fun other member => bounded other (by simp [member])) _ ?_
        (length_keepLba0Entry own width)
      intro slot present
      simp only [keepLba0Entry] at present
      split at present
      · cases old : state.2 with
        | none =>
            simp [old] at present
            omega
        | some first =>
            simp [old] at present
            exact present ▸ marker first (by simp [old])
      · split at present
        · exact marker slot present
        · exact marker slot present

theorem length_placeProtective {rebuild : Bool} {protective : Bytes16} {out placed : List UInt8}
    {markerSlot : Option Nat} (width : out.length = 512)
    (marker : ∀ slot ∈ markerSlot, slot < MbrLayout.entryCount)
    (done : placeProtective rebuild protective out markerSlot = .ok placed) :
    placed.length = 512 := by
  unfold placeProtective at done
  split at done
  · cases done
    exact width
  · obtain ⟨slot, chosen, done⟩ := bind_eq_ok.mp done
    cases done
    have bounded : slot < MbrLayout.entryCount := by
      rcases Option.or_eq_some_iff.mp (orRefuse_eq_ok.mp chosen) with own | ⟨_, free⟩
      · exact marker slot own
      · exact List.mem_range.mp (List.mem_of_find?_eq_some free)
    unfold MbrLayout.entryCount at bounded
    rw [length_splice, width]
    rw [width, protective.length_bytes, MbrLayout.entryAt, MbrLayout.tableStart,
      MbrLayout.entrySize]
    omega

theorem length_hybridLba0 {current : List UInt8} {lba0 : List ReservedEntry}
    {protective : Bytes16} {partitions : List Partition} {sector : List UInt8}
    (width : current.length = 512)
    (merged : hybridLba0 current lba0 protective partitions = .ok sector) :
    sector.length = 512 := by
  obtain ⟨inTable, merged⟩ := refuseIf_bind_eq_ok.mp merged
  have bounded : ∀ entry ∈ lba0, entry.slot.toNat < MbrLayout.entryCount := by
    simpa using inTable
  have started : (splice (List.replicate 512 0) 0
      (slice current 0 MbrLayout.tableStart)).length = 512 := by
    have front : (slice current 0 MbrLayout.tableStart).length = 446 :=
      length_slice (by rw [width]; decide)
    rw [length_splice (by rw [front, List.length_replicate]; omega), List.length_replicate]
  obtain ⟨folded, marker⟩ := foldl_keepLba0Entry (isProtective current) partitions bounded
    (splice (List.replicate 512 0) 0 (slice current 0 MbrLayout.tableStart), none)
    (by simp) started
  obtain ⟨out, placed, merged⟩ := bind_eq_ok.mp merged
  cases merged
  have placedLength := length_placeProtective folded marker placed
  rw [length_splice, placedLength]
  rw [placedLength]
  decide

theorem toNat_totalSectors (dev : ByteDevice) :
    (dev.sizeBytes / sectorSize).toNat = dev.bytes.length / 512 := by
  rw [UInt64.toNat_div, ByteDevice.toNat_sizeBytes, toNat_sectorSize]

theorem totalSectors_lt (dev : ByteDevice) : dev.bytes.length / 512 < 2 ^ 55 := by
  have := dev.length_lt
  omega

/-- What an accepted plan is: a usable range on this device, everybody seated in
a slot of their own, and the array those seats give. -/
structure GptPlan.Accepted (plan : GptPlan) (dev : ByteDevice) (partitions : List Partition)
    (g : GptGeometry) (tails : EntryTails) : Prop where
  writable : dev.writable = true
  usableOn : g.UsableOn (dev.bytes.length / 512) plan.usable
  length_slots : plan.slots.length = partitions.length
  own_slot : ∀ seat ∈ partitions.zip plan.slots, ∀ slot, seat.1.slot = some slot →
    seat.2 = slot
  seating : Seating g plan.usable (partitions.zip plan.slots)
  array_eq : plan.array = seatedArray g tails (partitions.zip plan.slots)
  length_lba0 : plan.lba0.length = 512

theorem length_plannedLba0 {dev : ByteDevice} {partitions : List Partition}
    {lba0 : List ReservedEntry} {sector : List UInt8}
    (planned : plannedLba0 dev partitions lba0 = .ok sector) : sector.length = 512 := by
  simp only [plannedLba0] at planned
  split at planned
  · cases planned
    exact length_protectiveMbr _
  · obtain ⟨current, read, merged⟩ := bind_eq_ok.mp planned
    have width : current.length = 512 := by
      cases inner : dev.readAt 0 512 with
      | error error =>
          rw [inner] at read
          cases read
      | ok bytes =>
          rw [inner] at read
          cases read
          exact dev.toBlockRead.length_readAt inner
    exact length_hybridLba0 width merged

theorem validatedSpan_eq_ok {usable span : UInt64 × UInt64} {p : Partition}
    (validated : validatedSpan usable.1 usable.2 p = .ok span) :
    p.FitsGpt usable ∧ p.span = span := by
  obtain ⟨_, valid, spanned⟩ := bind_eq_ok.mp validated
  exact ⟨validatePartition_eq_ok.mp valid, Partition.span_of_ok spanned⟩

theorem validatedSpan_of_fits {usable : UInt64 × UInt64} {p : Partition}
    (fits : p.FitsGpt usable) : validatedSpan usable.1 usable.2 p = .ok p.span := by
  obtain ⟨first, last, spanned, _⟩ := Partition.exists_sectorSpan fits.length_pos fits.bounded
  have valid : validatePartition p usable.1 usable.2 = .ok () := validatePartition_eq_ok.mpr fits
  rw [validatedSpan, valid, ok_bind, Partition.span_of_ok spanned, spanned]

theorem mapM_validatedSpan {usable : UInt64 × UInt64} {partitions : List Partition}
    {spans : List (UInt64 × UInt64)}
    (validated : partitions.mapM (validatedSpan usable.1 usable.2) = .ok spans) :
    (∀ p ∈ partitions, p.FitsGpt usable) ∧ spans = partitions.map Partition.span := by
  have pairs := mapM_eq_ok validated
  clear validated
  induction pairs with
  | nil => simp
  | cons head _ ih =>
      obtain ⟨fits, span⟩ := validatedSpan_eq_ok head
      rw [List.forall_mem_cons, List.map_cons, span, ← ih.2]
      exact ⟨⟨fits, ih.1⟩, rfl⟩

/-- A plan depends on what the device says of itself and, with entries of LBA 0 to keep, on
the first sector. -/
theorem gptPlan_congr {dev other : ByteDevice} (writable : dev.writable = other.writable)
    (size : dev.sizeBytes = other.sizeBytes) (partitions : List Partition) (g : GptGeometry)
    (tails : EntryTails) {lba0 : List ReservedEntry}
    (front : lba0 = [] ∨ dev.readAt 0 512 = other.readAt 0 512) :
    gptPlan dev partitions g tails lba0 = gptPlan other partitions g tails lba0 := by
  have sector : plannedLba0 dev partitions lba0 = plannedLba0 other partitions lba0 := by
    rcases front with rfl | same
    · simp only [plannedLba0, size, List.isEmpty_nil, if_true]
    · simp only [plannedLba0, size, same]
  simp only [gptPlan, sector, writable, size]

theorem gptPlan_eq_ok {dev : ByteDevice} {partitions : List Partition} {g : GptGeometry}
    {tails : EntryTails} {lba0 : List ReservedEntry} {plan : GptPlan}
    (planned : gptPlan dev partitions g tails lba0 = .ok plan) :
    plan.Accepted dev partitions g tails := by
  obtain ⟨writable, planned⟩ := refuseIf_bind_eq_ok.mp planned
  obtain ⟨usable, range, planned⟩ := bind_eq_ok.mp planned
  obtain ⟨_, planned⟩ := refuseIf_bind_eq_ok.mp planned
  obtain ⟨spans, validated, planned⟩ := bind_eq_ok.mp planned
  obtain ⟨clear, planned⟩ := refuseIf_bind_eq_ok.mp planned
  obtain ⟨slots, assigned, planned⟩ := bind_eq_ok.mp planned
  obtain ⟨array, built, planned⟩ := bind_eq_ok.mp planned
  obtain ⟨sector, merged, planned⟩ := bind_eq_ok.mp planned
  cases planned
  have usableOn := GptGeometry.usableRange_eq_ok range
  rw [toNat_totalSectors] at usableOn
  obtain ⟨fits, rfl⟩ := mapM_validatedSpan validated
  obtain ⟨lengthSlots, nodup, inTable, own⟩ := assignSlotsWithTaken_eq_ok assigned
  rw [List.append_nil] at nodup inTable
  have indices : (partitions.zip slots).map seatIndex = slots.map UInt32.toNat := by
    conv_rhs => rw [← List.map_snd_zip (Nat.le_of_eq lengthSlots), List.map_map]
    rfl
  have firsts : (partitions.zip slots).map (fun seat => seat.1.span) =
      partitions.map Partition.span := by
    conv_rhs => rw [← List.map_fst_zip (Nat.le_of_eq lengthSlots.symm), List.map_map]
    rfl
  have seating : Seating g usable (partitions.zip slots) := {
    room := usableOn.wellShaped.size_ge
    distinct := by
      rw [indices]
      exact nodup.map fun a b same => UInt32.toNat_inj.mp same
    bounded := fun seat member => inTable seat.2 (List.of_mem_zip member).2
    fits := fun seat member => fits seat.1 (List.of_mem_zip member).1
    records := records_of_buildEntryArray built
    apart := by
      rw [firsts]
      refine pairwise_of_markOverlaps (fun span member => ?_) (by simpa using clear)
      obtain ⟨p, present, rfl⟩ := List.mem_map.mp member
      exact span_ordered_of_fits (fits p present) }
  have table : buildEntryArray g tails (partitions.zip slots) =
      .ok (seatedArray g tails (partitions.zip slots)) :=
    buildEntryArray_eq seating.room seating.distinct seating.bounded seating.records
  exact {
    writable := by simpa using writable
    usableOn
    length_slots := lengthSlots
    own_slot := own
    seating
    array_eq := Except.ok.inj (built.symm.trans table)
    length_lba0 := length_plannedLba0 merged }

section Checksums

variable (crc32 : List UInt8 → UInt32)

/-- The primary header of a plan. -/
def GptPlan.primary (plan : GptPlan) (diskGuid : Guid) (g : GptGeometry) (total : UInt64) :
    List UInt8 :=
  buildHeader crc32 1 (total - 1) g.entryLba plan.usable diskGuid (crc32 plan.array) g

/-- The backup header of a plan. -/
def GptPlan.backup (plan : GptPlan) (diskGuid : Guid) (g : GptGeometry) (total : UInt64) :
    List UInt8 :=
  buildHeader crc32 (total - 1) 1 (total - 1 - g.arraySectors) plan.usable diskGuid
    (crc32 plan.array) g

/-- The five writes of a plan, in order. -/
def GptPlan.writes (plan : GptPlan) (diskGuid : Guid) (g : GptGeometry) (total : UInt64) :
    List (Write UInt8) :=
  [⟨0, plan.lba0⟩, ⟨sectorSize.toNat, plan.primary crc32 diskGuid g total⟩,
    ⟨(g.entryLba * sectorSize).toNat, plan.array⟩,
    ⟨((total - 1 - g.arraySectors) * sectorSize).toNat, plan.array⟩,
    ⟨((total - 1) * sectorSize).toNat, plan.backup crc32 diskGuid g total⟩]

variable {dev : ByteDevice} {partitions : List Partition} {diskGuid : Guid} {g : GptGeometry}
  {tails : EntryTails} {lba0 : List ReservedEntry}

/-- Settling LBA 0 reads the device and does not write it. -/
theorem exec_commitLba0 :
    (commitLba0 (dev.sizeBytes / sectorSize) partitions lba0).exec dev =
      (plannedLba0 dev partitions lba0, dev) := by
  simp only [commitLba0, plannedLba0]
  cases lba0.isEmpty with
  | true => rfl
  | false =>
      simp only [Bool.false_eq_true, if_false]
      rw [Fallible.exec_bind, DeviceM.exec_readAt]
      cases (dev.readAt 0 512).mapError Error.block <;> rfl

/-- A call to the writer is its plan followed by the plan's writes. -/
theorem planned_writeGptAssigningSlots (dev : ByteDevice) (partitions : List Partition)
    (diskGuid : Guid) (g : GptGeometry) (tails : EntryTails) (lba0 : List ReservedEntry) :
    Fallible.Planned (writeGptAssigningSlots crc32 partitions diskGuid g tails lba0)
      (gptPlan dev partitions g tails lba0)
      (fun plan => do
        DeviceM.writeAll (plan.writes crc32 diskGuid g (dev.sizeBytes / sectorSize))
        return plan.slots) dev := by
  unfold writeGptAssigningSlots gptPlan Fallible.Planned
  rw [Fallible.exec_current_bind]
  refine Fallible.Planned.check fun _ => ?_
  refine Fallible.Planned.check fun usable => ?_
  refine Fallible.Planned.check fun _ => ?_
  refine Fallible.Planned.check fun spans => ?_
  refine Fallible.Planned.check fun _ => ?_
  refine Fallible.Planned.check fun slots => ?_
  refine Fallible.Planned.check fun array => ?_
  unfold Fallible.Planned
  rw [Fallible.exec_bind, exec_commitLba0]
  cases plannedLba0 dev partitions lba0 with
  | error error => rfl
  | ok sector =>
      simp only [ok_bind, pure_eq_ok, DeviceM.writeAll, GptPlan.writes, bind_assoc, pure_bind]
      rfl

section Accepted

variable (diskGuid) {plan : GptPlan} (accepted : plan.Accepted dev partitions g tails)

include accepted

theorem toNat_lastLba :
    (dev.sizeBytes / sectorSize - 1).toNat = dev.bytes.length / 512 - 1 := by
  have room := accepted.usableOn.room
  have one : (1 : UInt64).toNat = 1 := rfl
  rw [toNat_sub_of_le (by rw [toNat_totalSectors, one]; omega), toNat_totalSectors, one]

theorem toNat_backupEntriesLba :
    (dev.sizeBytes / sectorSize - 1 - g.arraySectors).toNat =
      dev.bytes.length / 512 - 1 - g.arraySectors.toNat := by
  have room := accepted.usableOn.room
  rw [toNat_sub_of_le (by rw [toNat_lastLba accepted]; omega), toNat_lastLba accepted]

theorem length_plan_array : plan.array.length = g.arrayBytes.toNat := by
  rw [accepted.array_eq, length_seatedArray accepted.seating.room]

/-- The writes of an accepted plan cover the regions of its geometry. -/
theorem writes_region :
    (plan.writes crc32 diskGuid g (dev.sizeBytes / sectorSize)).map Write.region =
      g.regions (dev.bytes.length / 512) := by
  have room := accepted.usableOn.room
  have total := totalSectors_lt dev
  have last := toNat_lastLba accepted
  have backup := toNat_backupEntriesLba accepted
  simp only [GptPlan.writes, GptPlan.primary, GptPlan.backup, GptGeometry.regions,
    Write.region, List.map_cons, List.map_nil, length_buildHeader, accepted.length_lba0,
    length_plan_array accepted, toNat_sectorSize]
  rw [toNat_lba_mul (by omega), toNat_lba_mul (by omega),
    toNat_lba_mul (by omega), last, backup]

theorem writes_inside :
    ∀ write ∈ plan.writes crc32 diskGuid g (dev.sizeBytes / sectorSize),
      write.Inside dev.bytes.length := by
  intro write member
  have region : write.region ∈ g.regions (dev.bytes.length / 512) := by
    rw [← writes_region crc32 diskGuid accepted]
    exact List.mem_map_of_mem member
  have within := GptGeometry.regions_inside accepted.usableOn region
  have whole : dev.bytes.length / 512 * 512 ≤ dev.bytes.length := Nat.div_mul_le_self _ _
  exact Nat.le_trans within whole

theorem writes_pairwise :
    (plan.writes crc32 diskGuid g (dev.sizeBytes / sectorSize)).Pairwise Write.Disjoint := by
  have apart := GptGeometry.regions_pairwise accepted.usableOn
  rw [← writes_region crc32 diskGuid accepted, List.pairwise_map] at apart
  exact apart

/-- The device an accepted plan leaves. -/
def GptPlan.committed (plan : GptPlan) (diskGuid : Guid)
    (accepted : plan.Accepted dev partitions g tails) : ByteDevice :=
  dev.writtenAll (plan.writes crc32 diskGuid g (dev.sizeBytes / sectorSize))
    (writes_inside crc32 diskGuid accepted)

/-- Each region of the committed device holds what was written there. -/
theorem slice_committed (write : Write UInt8)
    (member : write ∈ plan.writes crc32 diskGuid g (dev.sizeBytes / sectorSize)) :
    slice (plan.committed crc32 diskGuid accepted).bytes write.offset write.data.length =
      write.data :=
  slice_applyAll_of_mem (writes_inside crc32 diskGuid accepted) (writes_pairwise crc32 diskGuid accepted) member

theorem length_committed :
    (plan.committed crc32 diskGuid accepted).bytes.length = dev.bytes.length :=
  length_applyAll (writes_inside crc32 diskGuid accepted)

theorem slice_committed_primary :
    slice (plan.committed crc32 diskGuid accepted).bytes 512 512 =
      plan.primary crc32 diskGuid g (dev.sizeBytes / sectorSize) := by
  have held := slice_committed crc32 diskGuid accepted
    ⟨sectorSize.toNat, plan.primary crc32 diskGuid g (dev.sizeBytes / sectorSize)⟩
    (by simp [GptPlan.writes])
  simp only [GptPlan.primary, length_buildHeader, toNat_sectorSize] at held
  exact held

theorem slice_committed_array :
    slice (plan.committed crc32 diskGuid accepted).bytes (g.entryLba.toNat * 512)
      g.arrayBytes.toNat = plan.array := by
  have room := accepted.usableOn.room
  have total := totalSectors_lt dev
  have held := slice_committed crc32 diskGuid accepted
    ⟨(g.entryLba * sectorSize).toNat, plan.array⟩ (by simp [GptPlan.writes])
  rw [toNat_lba_mul (by omega), length_plan_array accepted] at held
  exact held

theorem slice_committed_backupArray :
    slice (plan.committed crc32 diskGuid accepted).bytes
      ((dev.bytes.length / 512 - 1 - g.arraySectors.toNat) * 512) g.arrayBytes.toNat =
      plan.array := by
  have total := totalSectors_lt dev
  have backup := toNat_backupEntriesLba accepted
  have held := slice_committed crc32 diskGuid accepted
    ⟨((dev.sizeBytes / sectorSize - 1 - g.arraySectors) * sectorSize).toNat, plan.array⟩ (by simp [GptPlan.writes])
  rw [toNat_lba_mul (by omega), backup, length_plan_array accepted] at held
  exact held

theorem slice_committed_backup :
    slice (plan.committed crc32 diskGuid accepted).bytes
      ((dev.bytes.length / 512 - 1) * 512) 512 =
      plan.backup crc32 diskGuid g (dev.sizeBytes / sectorSize) := by
  have total := totalSectors_lt dev
  have last := toNat_lastLba accepted
  have held := slice_committed crc32 diskGuid accepted
    ⟨((dev.sizeBytes / sectorSize - 1) * sectorSize).toNat,
      plan.backup crc32 diskGuid g (dev.sizeBytes / sectorSize)⟩ (by simp [GptPlan.writes])
  rw [toNat_lba_mul (by omega), last] at held
  simp only [GptPlan.backup, length_buildHeader] at held
  exact held

theorem parseHeader_primary :
    parseHeader crc32 (plan.primary crc32 diskGuid g (dev.sizeBytes / sectorSize)) =
      .ok (builtHeader 1 (dev.sizeBytes / sectorSize - 1) g.entryLba plan.usable diskGuid
        (crc32 plan.array) g crc32) :=
  parseHeader_buildHeader crc32 accepted.usableOn.wellShaped

theorem parseHeader_backup :
    parseHeader crc32 (plan.backup crc32 diskGuid g (dev.sizeBytes / sectorSize)) =
      .ok (builtHeader (dev.sizeBytes / sectorSize - 1) 1
        (dev.sizeBytes / sectorSize - 1 - g.arraySectors) plan.usable diskGuid
        (crc32 plan.array) g crc32) :=
  parseHeader_buildHeader crc32 accepted.usableOn.wellShaped

end Accepted

/-- An accepted plan is carried out. -/
theorem writeGpt_of_plan {plan : GptPlan}
    (planned : gptPlan dev partitions g tails lba0 = .ok plan) :
    (writeGptAssigningSlots crc32 partitions diskGuid g tails lba0).exec dev =
      (.ok plan.slots, plan.committed crc32 diskGuid (gptPlan_eq_ok planned)) := by
  have run := planned_writeGptAssigningSlots crc32 dev partitions diskGuid g tails lba0
  unfold Fallible.Planned at run
  rw [run, planned]
  simp only
  rw [Fallible.exec_bind,
    DeviceM.exec_writeAll_of_inside (writes_inside crc32 diskGuid (gptPlan_eq_ok planned))]
  rfl

theorem exists_writeGpt (diskGuid : Guid) {slots : List UInt32}
    (planned : (gptPlan dev partitions g tails lba0).map GptPlan.slots = .ok slots) :
    ∃ after, (writeGptAssigningSlots crc32 partitions diskGuid g tails lba0).exec dev =
      (.ok slots, after) := by
  cases made : gptPlan dev partitions g tails lba0 with
  | error error =>
      rw [made] at planned
      cases planned
  | ok plan =>
      rw [made] at planned
      cases planned
      exact ⟨_, writeGpt_of_plan crc32 made⟩

/-- A call that succeeds has carried out an accepted plan. -/
theorem plan_of_writeGpt {slots : List UInt32} {after : ByteDevice}
    (written : (writeGptAssigningSlots crc32 partitions diskGuid g tails lba0).exec dev =
      (.ok slots, after)) :
    ∃ plan : GptPlan, ∃ accepted : plan.Accepted dev partitions g tails,
      plan.slots = slots ∧ after = plan.committed crc32 diskGuid accepted := by
  have run := planned_writeGptAssigningSlots crc32 dev partitions diskGuid g tails lba0
  unfold Fallible.Planned at run
  cases planned : gptPlan dev partitions g tails lba0 with
  | error error =>
      rw [run, planned] at written
      cases written
  | ok plan =>
      rw [writeGpt_of_plan crc32 planned] at written
      cases written
      exact ⟨plan, gptPlan_eq_ok planned, rfl, rfl⟩

/-- The array a successful call leaves. -/
theorem array_of_writeGpt {slots : List UInt32} {after : ByteDevice}
    (written : (writeGptAssigningSlots crc32 partitions diskGuid g tails lba0).exec dev =
      (.ok slots, after)) :
    slice after.bytes (g.entryLba.toNat * 512) g.arrayBytes.toNat =
      seatedArray g tails (partitions.zip slots) := by
  obtain ⟨plan, accepted, rfl, rfl⟩ := plan_of_writeGpt crc32 written
  rw [slice_committed_array, accepted.array_eq]

/-- A call that fails has written nothing. -/
theorem unchanged_of_writeGpt {error : Error} {after : ByteDevice}
    (refused : (writeGptAssigningSlots crc32 partitions diskGuid g tails lba0).exec dev =
      (.error error, after)) : after = dev := by
  have run := planned_writeGptAssigningSlots crc32 dev partitions diskGuid g tails lba0
  unfold Fallible.Planned at run
  cases planned : gptPlan dev partitions g tails lba0 with
  | error error =>
      rw [run, planned] at refused
      cases refused
      rfl
  | ok plan =>
      rw [writeGpt_of_plan crc32 planned] at refused
      cases refused

end Checksums

/-! ## A small disk -/

/-- A blank writable device of eight sectors. -/
def eightSectors : ByteDevice where
  bytes := List.replicate 4096 0
  writable := true
  flushed := .ok ()
  journal := []
  length_lt := by
    rw [List.length_replicate]
    decide

/-- One entry of 128 bytes at LBA 2: one sector each way, sectors 3 to 5 usable. -/
def smallGeometry : GptGeometry where
  numEntries := 1
  entrySize := 128
  entryLba := 2
  declaredUsable := none

/-- A partition over the sectors 3 and 4. -/
def smallPartition : Partition where
  start := 1536
  length := 1024
  kind := .gpt ⟨List.replicate 16 1, by simp⟩ 0
  label := some "a"
  uuid := some ⟨List.replicate 16 2, by simp⟩
  slot := none
  issues := 0
  availableLength := 1024

/-- The small partition is accepted on the small disk. -/
theorem gptPlan_eightSectors :
    (gptPlan eightSectors [smallPartition] smallGeometry (fun _ => none) []).map
      GptPlan.slots = .ok [0] := by
  decide +kernel

end DiskPartitions
