import DiskPartitions.GptRoundTrip
import DiskPartitions.ProbedSets
import DiskPartitions.TablePlans

/-!
# The set a committed GPT gives back

The bytes past the standard ones of an entry are kept by UUID: the reader collects
them from the array and the writer lays them out again.  With them the whole of what
`from_probe` returns on a committed device is known.
-/

namespace DiskPartitions

open Slices LittleEndian CheckedWords Refusals WriteJournal KeyOrder FallibleState

/-! ## The tails of an array -/

/-- The bytes past the standard ones of the entry in slot `i`. -/
def tailAt (size : Nat) (array : List UInt8) (i : Nat) : List UInt8 :=
  slice array (i * size + entryStandardBytes) (size - entryStandardBytes)

section Collecting

variable {size : Nat} {array : List UInt8} {parts : List Partition} {start tails : EntryTails}

/-- What was collected: the tail of every listed entry under its UUID, beside what was
there before. -/
theorem collectTails_eq_ok (collected : collectTails size array parts start = .ok tails) :
    (∀ uuid kept, start uuid = some kept → tails uuid = some kept) ∧
      (∀ p ∈ parts, ∀ uuid slot, p.uuid = some uuid → p.slot = some slot →
        tails uuid = some (tailAt size array slot.toNat)) ∧
      ∀ uuid, start uuid = none → (∀ p ∈ parts, p.uuid ≠ some uuid) → tails uuid = none := by
  induction parts generalizing start with
  | nil =>
      cases collected
      exact ⟨fun _ _ kept => kept, by simp, fun _ empty _ => empty⟩
  | cons p rest ih =>
      rw [collectTails] at collected
      split at collected
      next uuid slot named placed =>
        simp only at collected
        split at collected
        next kept known =>
          split at collected
          · cases collected
          next same =>
            obtain ⟨old, listed, absent⟩ := ih collected
            refine ⟨old, ?_, fun other empty others =>
              absent other empty fun q member => others q (List.mem_cons_of_mem p member)⟩
            rintro q member other place qNamed qPlaced
            rcases List.mem_cons.mp member with rfl | later
            · rw [named] at qNamed
              rw [placed] at qPlaced
              cases qNamed
              cases qPlaced
              rw [old _ _ known, not_not.mp same]
              rfl
            · exact listed q later other place qNamed qPlaced
        next unknown =>
          obtain ⟨old, listed, absent⟩ := ih collected
          refine ⟨fun other kept present => old other kept ?_, ?_, fun other empty others => ?_⟩
          · rw [if_neg]
            · exact present
            · rintro rfl
              rw [present] at unknown
              cases unknown
          · rintro q member other place qNamed qPlaced
            rcases List.mem_cons.mp member with rfl | later
            · rw [named] at qNamed
              rw [placed] at qPlaced
              cases qNamed
              cases qPlaced
              exact old uuid _ (if_pos rfl)
            · exact listed q later other place qNamed qPlaced
          · refine absent other ?_ fun q member => others q (List.mem_cons_of_mem p member)
            rw [if_neg]
            · exact empty
            · rintro rfl
              exact others p (by simp) named
      next missing =>
        obtain ⟨old, listed, absent⟩ := ih collected
        refine ⟨old, ?_, fun other empty others =>
          absent other empty fun q member => others q (List.mem_cons_of_mem p member)⟩
        rintro q member other place qNamed qPlaced
        rcases List.mem_cons.mp member with rfl | later
        · exact absurd qPlaced (missing other place qNamed)
        · exact listed q later other place qNamed qPlaced

/-- Entries that share their tail whenever they share their UUID are collected. -/
theorem exists_collectTails {shared : Guid → List UInt8}
    (agree : ∀ p ∈ parts, ∀ uuid slot, p.uuid = some uuid → p.slot = some slot →
      tailAt size array slot.toNat = shared uuid)
    (known : ∀ uuid kept, start uuid = some kept → kept = shared uuid) :
    ∃ tails, collectTails size array parts start = .ok tails := by
  induction parts generalizing start with
  | nil => exact ⟨start, rfl⟩
  | cons p rest ih =>
      have later : ∀ q ∈ rest, ∀ uuid slot, q.uuid = some uuid → q.slot = some slot →
          tailAt size array slot.toNat = shared uuid :=
        fun q member => agree q (List.mem_cons_of_mem p member)
      rw [collectTails]
      split
      next uuid slot named placed =>
        have own := agree p (by simp) uuid slot named placed
        simp only
        split
        next kept present =>
          rw [if_neg]
          · exact ih later known
          · rw [known uuid kept present, ← own]
            exact not_not.mpr rfl
        next absent =>
          refine ih later fun other kept present => ?_
          split at present
          next same =>
            rw [← Option.some.inj present, same]
            exact own
          next differs => exact known other kept present
      next missing => exact ih later known

end Collecting

/-! ## The tail of a written entry -/

/-- The tail field holds the tail and zeros after it. -/
theorem EntryRecord.slice_image_tail {r : EntryRecord} {tail : List UInt8} {size : Nat}
    (room : 128 + tail.length ≤ size) :
    slice (r.image size tail) 128 (size - 128) =
      tail ++ List.replicate (size - 128 - tail.length) 0 := by
  have name := length_labelBytes_le r.label
  have written := slice_image room ⟨128, tail⟩ (r := r) (by simp [writes, fixedWrites])
  have padding : slice (r.image size tail) (128 + tail.length) (size - 128 - tail.length) =
      List.replicate (size - 128 - tail.length) 0 := by
    rw [image, slice_applyAll_disjoint (image_inside room), slice_replicate 0 (by omega)]
    simp only [writes, fixedWrites, List.cons_append, List.nil_append, List.forall_mem_cons,
      r.typeGuid.length_bytes, r.uuid.length_bytes, length_u64Bytes, List.not_mem_nil,
      false_imp_iff, implies_true, and_true]
    omega
  have joined := slice_append_slice (r.image size tail) 128 tail.length
    (size - 128 - tail.length)
  have width : tail.length + (size - 128 - tail.length) = size - 128 := by omega
  rw [width] at joined
  rw [← joined, padding]
  exact congrArg (· ++ _) written

/-- The tail a commit leaves under a UUID: the one it carries, cut or filled to the
entry's room. -/
def paddedTail (g : GptGeometry) (tails : EntryTails) (uuid : Guid) : List UInt8 :=
  fittingTail g tails uuid ++
    List.replicate (g.entrySize.toNat - 128 - (fittingTail g tails uuid).length) 0

/-- The record of a partition has its UUID. -/
theorem uuid_of_entryRecord {p : Partition} {r : EntryRecord} (record : p.entryRecord = .ok r) :
    p.uuid = some r.uuid := by
  obtain ⟨_, _, rest⟩ := bind_eq_ok.mp record
  obtain ⟨uuid, own, rest⟩ := bind_eq_ok.mp rest
  obtain ⟨_, _, rest⟩ := bind_eq_ok.mp rest
  cases rest
  exact orRefuse_eq_ok.mp own

theorem tailAt_seatedArray {g : GptGeometry} {usable : UInt64 × UInt64} {tails : EntryTails}
    {seats : List (Partition × UInt32)} (seating : Seating g usable seats)
    {seat : Partition × UInt32} (member : seat ∈ seats) {uuid : Guid}
    (named : seat.1.uuid = some uuid) :
    tailAt g.entrySize.toNat (seatedArray g tails seats) (seatIndex seat) =
      paddedTail g tails uuid := by
  obtain ⟨r, record⟩ := seating.records seat member
  have own := uuid_of_entryRecord record
  rw [named] at own
  cases own
  have room := seating.room
  have held : seatedBlock g tails (fun _ => List.replicate g.entrySize.toNat 0) seats
      (seatIndex seat) = r.image g.entrySize.toNat (fittingTail g tails r.uuid) := by
    simp only [seatedBlock, itemAt_of_mem seating.distinct member, seatImage, record]
  unfold tailAt seatedArray entryStandardBytes
  rw [slice_blocks (fun _ _ => length_seatedBlock room List.length_replicate)
    (seating.bounded seat member) (by omega), held,
    EntryRecord.slice_image_tail (length_fittingTail room tails r.uuid)]
  rfl

/-! ## Probing a committed device again -/

/-- The tails collected from a committed array. -/
structure RereadTails (g : GptGeometry) (tails : EntryTails) (partitions : List Partition)
    (again : EntryTails) : Prop where
  standard : g.entrySize.toNat ≤ 128 → again = fun _ => none
  listed : 128 < g.entrySize.toNat → ∀ p ∈ partitions, ∀ uuid, p.uuid = some uuid →
    again uuid = some (paddedTail g tails uuid)
  absent : ∀ uuid, (∀ p ∈ partitions, p.uuid ≠ some uuid) → again uuid = none

/-- The set found on a device that holds the table of a plan for `partitions`, with LBA 0
as given. -/
structure PartitionSet.Reread (plan : GptPlan) (dev : ByteDevice) (partitions : List Partition)
    (diskGuid : Guid) (g : GptGeometry) (tails : EntryTails) (lba0 : List UInt8)
    (again : PartitionSet) : Prop where
  tableKind : again.tableKind = .gpt
  tails : RereadTails g tails partitions again.gptEntryTails
  partitions : again.partitions = storedBySlot g (partitions.zip plan.slots)
  diskSize : again.diskSize = dev.sizeBytes
  diskGuid : again.diskGuid = diskGuid
  geometry : again.gptGeometry = { g with declaredUsable := some plan.usable }
  reserved : again.reserved = lba0Entries lba0

section Holding

variable (crc32 : List UInt8 → UInt32) {dev state : ByteDevice} {partitions : List Partition}
  {diskGuid : Guid} {g : GptGeometry} {tails : EntryTails} {plan : GptPlan}
  (accepted : plan.Accepted dev partitions g tails)

include accepted

/-- A partition found again is one of the seats. -/
theorem mem_storedBySlot {p : Partition}
    (member : p ∈ storedBySlot g (partitions.zip plan.slots)) :
    ∃ seat ∈ partitions.zip plan.slots, p = stored seat.1 seat.2 := by
  have listed := (storedBySlot_perm accepted).mem_iff.mp member
  rw [← List.map_uncurry_zip_eq_zipWith] at listed
  obtain ⟨seat, present, rfl⟩ := List.mem_map.mp listed
  exact ⟨seat, present, rfl⟩

/-- The seat of a partition. -/
theorem seat_of_mem {p : Partition} (member : p ∈ partitions) :
    ∃ slot, (p, slot) ∈ partitions.zip plan.slots := by
  obtain ⟨i, listed⟩ := List.getElem?_of_mem member
  obtain ⟨slot, _, seat⟩ := mem_zip_of_getElem? accepted.length_slots listed
  exact ⟨slot, seat⟩

theorem mem_storedBySlot_of_seat {seat : Partition × UInt32}
    (member : seat ∈ partitions.zip plan.slots) :
    stored seat.1 seat.2 ∈ storedBySlot g (partitions.zip plan.slots) := by
  rw [(storedBySlot_perm accepted).mem_iff, ← List.map_uncurry_zip_eq_zipWith]
  exact List.mem_map_of_mem member

variable (sameLength : state.bytes.length = dev.bytes.length)
  (array : HoldsArray plan g state)

include sameLength array

/-- The array of a plan, as its header finds it. -/
theorem parseEntryArray_of_holds :
    parseEntryArray crc32 state
      (builtHeader 1 (dev.sizeBytes / sectorSize - 1) g.entryLba plan.usable diskGuid
        (crc32 plan.array) g crc32) =
      .ok (storedBySlot g (partitions.zip plan.slots),
        seatedArray g tails (partitions.zip plan.slots)) := by
  have usableOn := accepted.usableOn
  have room := usableOn.room
  have bytes := g.arrayBytes_le
  rw [← sameLength] at usableOn room
  refine parseEntryArray_seated crc32 (describes_builtHeader crc32 diskGuid g 1 _ g.entryLba
    plan.usable (crc32 plan.array)) ?_ usableOn accepted.seating ?_ ?_
  · change g.entryLba.toNat * 512 + _ ≤ _
    omega
  · exact array.trans accepted.array_eq
  · exact congrArg crc32 accepted.array_eq.symm

/-- The tails of a committed array are collected without complaint: entries that share
their UUID were given the same tail. -/
theorem entryTails_of_holds :
    ∃ again, entryTails crc32 state
      (builtHeader 1 (dev.sizeBytes / sectorSize - 1) g.entryLba plan.usable diskGuid
        (crc32 plan.array) g crc32) = .ok again ∧ RereadTails g tails partitions again := by
  have size : (builtHeader 1 (dev.sizeBytes / sectorSize - 1) g.entryLba plan.usable diskGuid
    (crc32 plan.array) g crc32).partitionEntrySize = g.entrySize := rfl
  unfold entryTails
  rw [size]
  by_cases standard : g.entrySize.toNat ≤ entryStandardBytes
  · rw [if_pos standard]
    exact ⟨_, rfl, fun _ => rfl, fun large => absurd standard (Nat.not_le.mpr large),
      fun _ _ => rfl⟩
  · have shared : ∀ p ∈ storedBySlot g (partitions.zip plan.slots), ∀ uuid slot,
        p.uuid = some uuid → p.slot = some slot → tailAt g.entrySize.toNat
          (seatedArray g tails (partitions.zip plan.slots)) slot.toNat =
          paddedTail g tails uuid := by
      intro p member uuid slot named placed
      obtain ⟨seat, present, rfl⟩ := mem_storedBySlot accepted member
      cases placed
      exact tailAt_seatedArray accepted.seating present named
    have none : ∀ uuid kept, (fun _ : Guid => (none : Option (List UInt8))) uuid = some kept →
        kept = paddedTail g tails uuid := nofun
    obtain ⟨again, collected⟩ := exists_collectTails shared none
    obtain ⟨_, listed, absent⟩ := collectTails_eq_ok collected
    rw [if_neg standard, parseEntryArray_of_holds crc32 accepted sameLength array]
    refine ⟨again, collected, fun small => absurd small standard, ?_, ?_⟩
    · intro _ p member uuid named
      obtain ⟨slot, seat⟩ := seat_of_mem accepted member
      have found := mem_storedBySlot_of_seat accepted seat
      rw [listed _ found uuid slot named rfl]
      exact congrArg some (shared _ found uuid slot named rfl)
    · intro uuid others
      refine absent uuid rfl fun p member => ?_
      obtain ⟨seat, present, rfl⟩ := mem_storedBySlot accepted member
      exact others seat.1 (List.of_mem_zip present).1

/-- What `from_probe` returns on a device that holds the table of a plan. -/
theorem fromProbe_of_holds (primary : HoldsPrimary crc32 plan diskGuid g state) :
    ∃ again, PartitionSet.fromProbe crc32 state = .ok again ∧
      again.Reread plan dev partitions diskGuid g tails (slice state.bytes 0 512) := by
  have room := accepted.usableOn.room
  have parsed := parseGpt_of_holds crc32 accepted sameLength primary array
  have probed : probe crc32 state =
      .ok (.gpt, storedBySlot g (partitions.zip plan.slots)) := by
    rw [probe, probeInner_of_primary crc32 accepted sameLength primary, probeGpt, parsed]
    rfl
  obtain ⟨again, collected, tailsFound⟩ := @entryTails_of_holds crc32 _ _ _ diskGuid _ _ _
    accepted sameLength array
  have size : state.sizeBytes = dev.sizeBytes := sizeBytes_eq sameLength
  have lba0 : BlockRead.read state 0 512 = .ok (slice state.bytes 0 512) :=
    read_of_le (by omega)
  have lba1 : BlockRead.read state 512 512 =
      .ok (plan.primary crc32 diskGuid g (dev.sizeBytes / sectorSize)) := by
    unfold HoldsPrimary at primary
    rw [read_of_le (by omega), primary, size]
  have reported : state.toBlockRead.sizeBytes = dev.sizeBytes := size
  unfold PartitionSet.fromProbe
  rw [probed, ok_bind]
  simp only [lba0, ok_bind, if_true, lba1, parseHeader_primary crc32 diskGuid accepted, collected,
    reported]
  exact ⟨_, rfl, rfl, tailsFound, rfl, rfl, rfl, rfl, rfl⟩

end Holding

section Committed

variable (crc32 : List UInt8 → UInt32) {dev : ByteDevice} {partitions : List Partition}
  (diskGuid : Guid) {g : GptGeometry} {tails : EntryTails} {plan : GptPlan}
  (accepted : plan.Accepted dev partitions g tails)

include accepted

theorem slice_committed_lba0 :
    slice (plan.committed crc32 diskGuid accepted).bytes 0 512 = plan.lba0 := by
  have held := slice_committed crc32 diskGuid accepted ⟨0, plan.lba0⟩ (by simp [GptPlan.writes])
  rw [accepted.length_lba0] at held
  exact held

/-- What `from_probe` returns on a committed device. -/
theorem fromProbe_committed :
    ∃ again, PartitionSet.fromProbe crc32 (plan.committed crc32 diskGuid accepted) = .ok again ∧
      again.Reread plan dev partitions diskGuid g tails plan.lba0 := by
  have found := fromProbe_of_holds crc32 accepted (length_committed crc32 diskGuid accepted)
    (holdsArray_committed crc32 diskGuid accepted) (holdsPrimary_committed crc32 diskGuid accepted)
  rw [slice_committed_lba0] at found
  exact found

end Committed

/-! ## The commit of a GPT set -/

/-- A commit that succeeds has carried out its plan, on a device that flushes. -/
theorem PartitionSet.commitGpt_eq_ok {crc32 : List UInt8 → UInt32} {set : PartitionSet}
    {dev after : ByteDevice} (gpt : set.tableKind = .gpt)
    (committed : (set.commit crc32).exec dev = (.ok (), after)) :
    ∃ plan, gptPlan dev set.partitions set.gptGeometry set.gptEntryTails set.reserved =
        .ok plan ∧ dev.flushed = .ok () ∧
      ∃ accepted : plan.Accepted dev set.partitions set.gptGeometry set.gptEntryTails,
        after = plan.committed crc32 set.diskGuid accepted := by
  obtain ⟨slots, both⟩ := commit_eq_ok crc32 committed
  have written := writeAndFlush_eq_ok crc32 both
  have flushed := flushed_of_writeAndFlush crc32 both
  rw [writeTable_gpt crc32 gpt] at written
  have run := planned_writeGptAssigningSlots crc32 dev set.partitions set.diskGuid
    set.gptGeometry set.gptEntryTails set.reserved
  cases planned : gptPlan dev set.partitions set.gptGeometry set.gptEntryTails set.reserved with
  | error error =>
      rw [run.refused planned] at written
      cases written
  | ok plan =>
      rw [writeGpt_of_plan crc32 planned] at written
      cases written
      exact ⟨plan, rfl, flushed, gptPlan_eq_ok planned, rfl⟩

/-- A plan on a device that flushes is carried out by the commit. -/
theorem PartitionSet.commitGpt_of_plan {crc32 : List UInt8 → UInt32} {set : PartitionSet}
    {dev : ByteDevice} {plan : GptPlan} (gpt : set.tableKind = .gpt)
    (planned : gptPlan dev set.partitions set.gptGeometry set.gptEntryTails set.reserved =
      .ok plan) (flushed : dev.flushed = .ok ()) :
    (set.commit crc32).exec dev =
      (.ok (), plan.committed crc32 set.diskGuid (gptPlan_eq_ok planned)) := by
  have written : (set.writeTable crc32).exec dev =
      (.ok plan.slots, plan.committed crc32 set.diskGuid (gptPlan_eq_ok planned)) := by
    rw [writeTable_gpt crc32 gpt]
    exact writeGpt_of_plan crc32 planned
  exact commit_of_writeAndFlush crc32 (writeAndFlush_of_writeTable crc32 written flushed)

/-! ## A small hybrid disk with tails -/

/-- Two entries of 256 bytes at LBA 2. -/
def taggedGeometry : GptGeometry where
  numEntries := 2
  entrySize := 256
  entryLba := 2
  declaredUsable := none

/-- A partition of one sector. -/
def taggedPartition (start : UInt64) (tag : UInt8) : Partition where
  start := start
  length := 512
  kind := .gpt (.filled 1) 0
  label := some "a"
  uuid := some (.filled tag)
  slot := none
  issues := 0
  availableLength := 512

/-- The sectors 3 and 4. -/
def taggedPartitions : List Partition := [taggedPartition 1536 2, taggedPartition 2048 3]

/-- Each of the two partitions has a tail of its own. -/
def taggedTails : EntryTails := fun uuid =>
  if uuid.bytes = List.replicate 16 2 ∨ uuid.bytes = List.replicate 16 3 then
    some (List.replicate 128 (byteAt uuid.bytes 0))
  else none

/-- What a commit of the two partitions to a blank disk of eight sectors writes. -/
def taggedPlan : GptPlan where
  usable := (3, 5)
  spans := [(3, 3), (4, 4)]
  slots := [0, 1]
  array := seatedArray taggedGeometry taggedTails (taggedPartitions.zip [0, 1])
  lba0 := protectiveMbr 8

theorem gptPlan_tagged :
    gptPlan eightSectors taggedPartitions taggedGeometry taggedTails [] = .ok taggedPlan := by
  decide +kernel

/-- LBA 0 with a GPT marker over two sectors and a mirror of the first partition. -/
def hybridSector : List UInt8 :=
  List.replicate 446 0 ++
    [0, 0, 2, 0, 0xEE, 0, 0, 0, 1, 0, 0, 0, 2, 0, 0, 0,
      0, 0, 0, 0, 0x83, 0, 0, 0, 3, 0, 0, 0, 1, 0, 0, 0] ++
    List.replicate 32 0 ++ [0x55, 0xAA]

theorem length_hybridSector : hybridSector.length = 512 := by decide +kernel

/-- The committed disk before LBA 0 was made hybrid. -/
def plainDisk : ByteDevice :=
  taggedPlan.committed CyclicSums.ieee unusedTypeGuid (gptPlan_eq_ok gptPlan_tagged)

theorem length_plainDisk : plainDisk.bytes.length = 4096 :=
  (length_committed CyclicSums.ieee unusedTypeGuid (gptPlan_eq_ok gptPlan_tagged)).trans
    List.length_replicate

theorem front_plainDisk : 0 + hybridSector.length ≤ plainDisk.bytes.length := by
  rw [length_hybridSector, length_plainDisk]
  decide

theorem inside_hybridSector : (⟨0, hybridSector⟩ : Write UInt8).Inside plainDisk.bytes.length := by
  unfold Write.Inside
  rw [length_hybridSector, length_plainDisk]
  decide

/-- The hybrid disk. -/
def taggedDisk : ByteDevice := plainDisk.written ⟨0, hybridSector⟩ inside_hybridSector

/-- The set of the hybrid disk. -/
def taggedSet : PartitionSet where
  tableKind := .gpt
  partitions := [stored (taggedPartition 1536 2) 0, stored (taggedPartition 2048 3) 1]
  diskSize := 4096
  diskGuid := unusedTypeGuid
  gptEntryTails := taggedTails
  gptGeometry := { taggedGeometry with declaredUsable := some (3, 5) }
  reserved := lba0Entries hybridSector

theorem bytes_taggedDisk : taggedDisk.bytes = splice plainDisk.bytes 0 hybridSector := by
  rw [taggedDisk, ByteDevice.bytes_written, Write.apply]

theorem length_taggedDisk : taggedDisk.bytes.length = 4096 := by
  rw [bytes_taggedDisk, length_splice front_plainDisk, length_plainDisk]

theorem sizeBytes_taggedDisk : taggedDisk.sizeBytes = eightSectors.sizeBytes :=
  sizeBytes_eq (length_taggedDisk.trans List.length_replicate.symm)

/-- Past LBA 0 the disk is as it was committed. -/
theorem slice_taggedDisk {start len : Nat} (past : 512 ≤ start) :
    slice taggedDisk.bytes start len = slice plainDisk.bytes start len := by
  rw [bytes_taggedDisk]
  exact slice_splice_disjoint front_plainDisk (.inr (by rw [length_hybridSector]; exact past))

theorem slice_taggedDisk_lba0 : slice taggedDisk.bytes 0 512 = hybridSector := by
  have held := slice_splice_self front_plainDisk
  rw [length_hybridSector] at held
  rw [bytes_taggedDisk, held]

theorem paddedTail_tagged {uuid : Guid} (tagged : uuid.bytes = List.replicate 16 2 ∨
    uuid.bytes = List.replicate 16 3) :
    some (paddedTail taggedGeometry taggedTails uuid) = taggedTails uuid := by
  have own : taggedTails uuid = some (List.replicate 128 (byteAt uuid.bytes 0)) := if_pos tagged
  have fitting : fittingTail taggedGeometry taggedTails uuid =
      List.replicate 128 (byteAt uuid.bytes 0) := by
    rw [fittingTail, own, Option.getD_some]
    exact List.take_of_length_le (by rw [List.length_replicate]; decide)
  rw [paddedTail, fitting, own, List.length_replicate]
  exact congrArg some (List.append_nil _)

/-- The tails found again are the ones that were written. -/
theorem tails_taggedDisk {again : EntryTails}
    (reread : RereadTails taggedGeometry taggedTails taggedPartitions again) :
    again = taggedTails := by
  have listed := reread.listed (by decide)
  funext uuid
  by_cases tagged : uuid.bytes = List.replicate 16 2 ∨ uuid.bytes = List.replicate 16 3
  · rw [← paddedTail_tagged tagged]
    rcases tagged with first | second
    · have own : (taggedPartition 1536 2).uuid = some uuid :=
        congrArg some (Bytes16.ext_bytes first.symm)
      exact listed _ (by simp [taggedPartitions]) uuid own
    · have own : (taggedPartition 2048 3).uuid = some uuid :=
        congrArg some (Bytes16.ext_bytes second.symm)
      exact listed _ (by simp [taggedPartitions]) uuid own
  · have unlisted : taggedTails uuid = none := if_neg tagged
    rw [unlisted]
    refine reread.absent uuid fun p member named => tagged ?_
    simp only [taggedPartitions, List.mem_cons, List.not_mem_nil, or_false] at member
    rcases member with rfl | rfl
    · exact .inl (congrArg Bytes16.bytes (Option.some.inj named)).symm
    · exact .inr (congrArg Bytes16.bytes (Option.some.inj named)).symm

theorem fromProbe_taggedDisk :
    PartitionSet.fromProbe CyclicSums.ieee taggedDisk = .ok taggedSet := by
  have accepted := gptPlan_eq_ok gptPlan_tagged
  have lengths : taggedDisk.bytes.length = eightSectors.bytes.length :=
    length_taggedDisk.trans List.length_replicate.symm
  have array : HoldsArray taggedPlan taggedGeometry taggedDisk := by
    unfold HoldsArray
    rw [slice_taggedDisk (by decide)]
    exact holdsArray_committed CyclicSums.ieee unusedTypeGuid accepted
  have primary : HoldsPrimary CyclicSums.ieee taggedPlan unusedTypeGuid taggedGeometry
      taggedDisk := by
    unfold HoldsPrimary
    rw [slice_taggedDisk (by decide), sizeBytes_taggedDisk]
    exact slice_committed_primary CyclicSums.ieee unusedTypeGuid accepted
  obtain ⟨again, found, reread⟩ := fromProbe_of_holds CyclicSums.ieee accepted lengths array primary
  have tails := tails_taggedDisk reread.tails
  obtain ⟨kind, _, parts, size, guid, geometry, entries⟩ := reread
  rw [slice_taggedDisk_lba0] at entries
  rw [found]
  obtain ⟨_, _, _, _, _, _, _⟩ := again
  simp only at kind parts size guid geometry entries tails
  have seated : storedBySlot taggedGeometry (taggedPartitions.zip taggedPlan.slots) =
      [stored (taggedPartition 1536 2) 0, stored (taggedPartition 2048 3) 1] := by
    decide +kernel
  have total : eightSectors.sizeBytes = 4096 := by decide +kernel
  rw [kind, parts, size, guid, geometry, entries, tails, seated, total]
  unfold taggedSet
  rfl

/-- Eight sectors with the same LBA 0. -/
def frontDisk : ByteDevice where
  bytes := hybridSector ++ List.replicate 3584 0
  writable := true
  flushed := .ok ()
  journal := []
  length_lt := by
    rw [List.length_append, length_hybridSector, List.length_replicate]
    decide

/-- What a plan for the hybrid disk needs of it is LBA 0. -/
theorem gptPlan_taggedDisk (partitions : List Partition) (g : GptGeometry) (tails : EntryTails)
    (lba0 : List ReservedEntry) :
    gptPlan taggedDisk partitions g tails lba0 = gptPlan frontDisk partitions g tails lba0 := by
  have length : frontDisk.bytes.length = 4096 := by
    rw [frontDisk, List.length_append, length_hybridSector, List.length_replicate]
  have front : slice frontDisk.bytes 0 512 = hybridSector := by decide +kernel
  have writable : taggedDisk.writable = frontDisk.writable := rfl
  refine gptPlan_congr writable (sizeBytes_eq (length_taggedDisk.trans length.symm)) _ _ _
    (.inr ?_)
  rw [ByteDevice.readAt_of_le (by rw [length_taggedDisk]; decide),
    ByteDevice.readAt_of_le (by rw [length]; decide), slice_taggedDisk_lba0, front]

/-- A set that is planned on that sector is committed to the hybrid disk. -/
theorem exists_commit_taggedDisk {set : PartitionSet} (gpt : set.tableKind = .gpt)
    {slots : List UInt32} (planned : (gptPlan frontDisk set.partitions set.gptGeometry
      set.gptEntryTails set.reserved).map GptPlan.slots = .ok slots) :
    ∃ after, (set.commit CyclicSums.ieee).exec taggedDisk = (.ok (), after) := by
  cases made : gptPlan frontDisk set.partitions set.gptGeometry set.gptEntryTails set.reserved with
  | error error =>
      rw [made] at planned
      cases planned
  | ok plan =>
      have flushed : taggedDisk.flushed = .ok () := rfl
      rw [← gptPlan_taggedDisk] at made
      exact ⟨_, PartitionSet.commitGpt_of_plan gpt made flushed⟩

/-- The hybrid disk's own set is committed to it. -/
theorem exists_commit_taggedSet :
    ∃ after, (taggedSet.commit CyclicSums.ieee).exec taggedDisk = (.ok (), after) := by
  have planned : (gptPlan frontDisk taggedSet.partitions taggedSet.gptGeometry
      taggedSet.gptEntryTails taggedSet.reserved).map GptPlan.slots = .ok [0, 1] := by
    decide +kernel
  exact exists_commit_taggedDisk rfl planned

end DiskPartitions
