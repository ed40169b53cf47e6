import DiskPartitions.CommittedSets
import DiskPartitions.PartitionSlices
import DiskPartitions.SharedStores
import DiskPartitions.StableSlots
import Mathlib.Data.List.Pairwise

/-!
# Partitions share their disk

Programs write to the partitions of a GPT disk through the slices that are handed out for them,
while its table is edited, committed and read back.  Each partition is then a store of its own: a
write through one slice reaches no other partition and no copy of the table, and a commit keeps
the bytes of every partition that keeps its slot, as far as it is not cut off.
-/

namespace DiskPartitions

open Slices CheckedWords Refusals WriteJournal KeyOrder FallibleState SharedStores

/-! ## What happens to a disk -/

/-- Write through a slice, from `offset` bytes after its start. -/
def OwnedSlice.writeAt (owned : OwnedSlice) (offset : Nat) (bytes : List UInt8) : DeviceM Unit :=
  if offset + bytes.length ≤ owned.length.toNat then
    DeviceM.writeAt (owned.start.toNat + offset) bytes
  else
    Fallible.ofExcept (.error (.block (.outOfBounds offset bytes.length owned.length.toNat)))

section Disk

variable (crc32 : List UInt8 → UInt32)

/-- The partitions that a probe of the disk lists, none when it fails. -/
def listedParts (dev : ByteDevice) : List Partition :=
  match probeWithStatus crc32 dev with
  | .ok (_, parts, _) => parts
  | .error _ => []

/-- Probe the disk, open the partition in place `index` of the list and write to it. -/
def writePartition (index offset : Nat) (bytes : List UInt8) : DeviceM Unit := do
  let dev ← Fallible.current
  let owned ← Fallible.ofExcept
    ((partitionsOpenSlice dev (listedParts crc32 dev) index).mapError fun why =>
      .block (.custom why))
  owned.writeAt offset bytes

/-- One thing that happens: a call on the set in memory, or a write to a partition of the disk. -/
inductive DiskUse
  | edit (change : Edit)
  | commit
  | reload
  | write (index offset : Nat) (bytes : List UInt8)

/-- The set and the disk afterwards, whether it succeeds or fails. -/
def DiskUse.apply (state : PartitionSet × ByteDevice) : DiskUse → PartitionSet × ByteDevice
  | edit change => (change.apply state.1, state.2)
  | commit => ((PartitionSet.commitMut crc32).exec state).2
  | reload => ((PartitionSet.fromProbe crc32 state.2).toOption.getD state.1, state.2)
  | write index offset bytes =>
      (state.1, ((writePartition crc32 index offset bytes).exec state.2).2)

theorem DiskUse.apply_edit (change : Edit) (state : PartitionSet × ByteDevice) :
    (DiskUse.edit change).apply crc32 state = (change.apply state.1, state.2) := rfl

def DiskUse.applyAll (uses : List DiskUse) (state : PartitionSet × ByteDevice) :
    PartitionSet × ByteDevice :=
  uses.foldl (apply crc32) state

/-! ## The stores of a disk -/

/-- Where the partition in a slot lies; nowhere, when none has that slot. -/
def slotRegion (parts : List Partition) (slot : UInt32) : Nat × Nat :=
  match parts.find? fun p => p.slot = some slot with
  | some p => (p.start.toNat, p.length.toNat)
  | none => (0, 0)

/-- The bytes of the partition in a slot. -/
def storeOf (dev : ByteDevice) : UInt32 → List UInt8 :=
  storesIn dev.bytes (slotRegion (listedParts crc32 dev))

/-- How many bytes of the partition in a slot a commit of the set keeps: those inside it before
and after, if the set has a partition with that slot. -/
def PartitionSet.keptBytes (set : PartitionSet) (dev : ByteDevice) (slot : UInt32) : Nat :=
  min (slotRegion set.partitions slot).2 (storeOf crc32 dev slot).length

/-- What it does to the stores, unless it leaves them alone. -/
def DiskUse.act (state : PartitionSet × ByteDevice) : DiskUse → Option (Act UInt32 UInt8)
  | edit _ => none
  | reload => none
  | commit =>
      if (state.1.tablePlan crc32 state.2).isOk then
        some (.lay (state.1.keptBytes crc32 state.2))
      else none
  | write index offset bytes =>
      if ((writePartition crc32 index offset bytes).exec state.2).1.isOk then
        ((listedParts crc32 state.2)[index]?.bind Partition.slot).map fun slot =>
          .put slot offset bytes
      else none

theorem DiskUse.act_edit (change : Edit) (state : PartitionSet × ByteDevice) :
    (DiskUse.edit change).act crc32 state = none := rfl

theorem DiskUse.act_reload (state : PartitionSet × ByteDevice) :
    DiskUse.reload.act crc32 state = none := rfl

/-- What several of them do to the stores, in order. -/
def DiskUse.acts : List DiskUse → PartitionSet × ByteDevice → List (Act UInt32 UInt8)
  | [], _ => []
  | use :: uses, state => (use.act crc32 state).toList ++ acts uses (use.apply crc32 state)

theorem DiskUse.acts_nil (state : PartitionSet × ByteDevice) :
    DiskUse.acts crc32 [] state = [] := rfl

theorem DiskUse.acts_cons (use : DiskUse) (uses : List DiskUse)
    (state : PartitionSet × ByteDevice) : DiskUse.acts crc32 (use :: uses) state =
      (use.act crc32 state).toList ++ DiskUse.acts crc32 uses (use.apply crc32 state) := rfl

end Disk

/-! ## A disk that holds its table -/

section Tables

variable {crc32 : List UInt8 → UInt32} {dev state : ByteDevice} {partitions : List Partition}
  {diskGuid : Guid} {g : GptGeometry} {tails : EntryTails} {plan : GptPlan}

/-- The device holds both copies of the table of a plan made for a device of its size. -/
structure HoldsPlan (crc32 : List UInt8 → UInt32) (state : ByteDevice)
    (partitions : List Partition) (diskGuid : Guid) (g : GptGeometry) (tails : EntryTails)
    (plan : GptPlan) : Prop where
  accepted : ∃ dev : ByteDevice, plan.Accepted dev partitions g tails ∧
    state.bytes.length = dev.bytes.length
  primary : HoldsPrimary crc32 plan diskGuid g state
  array : HoldsArray plan g state
  backup : HoldsBackup crc32 plan diskGuid g state

theorem holdsPlan_committed (accepted : plan.Accepted dev partitions g tails) :
    HoldsPlan crc32 (plan.committed crc32 diskGuid accepted) partitions diskGuid g tails plan where
  accepted := ⟨dev, accepted, length_committed crc32 diskGuid accepted⟩
  primary := holdsPrimary_committed crc32 diskGuid accepted
  array := holdsArray_committed crc32 diskGuid accepted
  backup := holdsBackup_committed crc32 diskGuid accepted

theorem HoldsPlan.usableOn (holds : HoldsPlan crc32 state partitions diskGuid g tails plan) :
    g.UsableOn (state.bytes.length / 512) plan.usable := by
  obtain ⟨dev, accepted, length⟩ := holds.accepted
  rw [length]
  exact accepted.usableOn

theorem HoldsPlan.seating (holds : HoldsPlan crc32 state partitions diskGuid g tails plan) :
    Seating g plan.usable (partitions.zip plan.slots) := by
  obtain ⟨dev, accepted, -⟩ := holds.accepted
  exact accepted.seating

/-- Both copies of the table list the partitions of the plan. -/
theorem HoldsPlan.probed (holds : HoldsPlan crc32 state partitions diskGuid g tails plan) :
    probeWithStatus crc32 state =
      .ok (.gpt, storedBySlot g (partitions.zip plan.slots), .primary) := by
  obtain ⟨dev, accepted, length⟩ := holds.accepted
  have parsed := parseGpt_of_holds crc32 accepted length holds.primary holds.array
  have backup := parseBackup_of_holds crc32 accepted length holds.backup
  rw [probeWithStatus, probeInner_of_primary crc32 accepted length holds.primary, probeGpt, parsed]
  simp only [if_true]
  rw [validateBackup_of_same backup]
  rfl

theorem HoldsPlan.listedParts (holds : HoldsPlan crc32 state partitions diskGuid g tails plan) :
    listedParts crc32 state = storedBySlot g (partitions.zip plan.slots) := by
  rw [DiskPartitions.listedParts, holds.probed]

theorem HoldsPlan.mem_listed (holds : HoldsPlan crc32 state partitions diskGuid g tails plan)
    {p : Partition} : p ∈ DiskPartitions.listedParts crc32 state ↔
      ∃ seat ∈ partitions.zip plan.slots, p = stored seat.1 seat.2 := by
  obtain ⟨dev, accepted, -⟩ := holds.accepted
  rw [holds.listedParts]
  constructor
  · exact mem_storedBySlot accepted
  · rintro ⟨seat, member, rfl⟩
    exact mem_storedBySlot_of_seat accepted member

/-- A device with the same bytes wherever a commit writes holds the same table. -/
theorem HoldsPlan.of_same (holds : HoldsPlan crc32 state partitions diskGuid g tails plan)
    {other : ByteDevice} (length : other.bytes.length = state.bytes.length)
    (same : ∀ region ∈ g.regions (state.bytes.length / 512),
      slice other.bytes region.1 region.2 = slice state.bytes region.1 region.2) :
    HoldsPlan crc32 other partitions diskGuid g tails plan := by
  have size : other.sizeBytes = state.sizeBytes := sizeBytes_eq length
  refine ⟨?_, ?_, ?_, ?_⟩
  · obtain ⟨dev, accepted, sized⟩ := holds.accepted
    exact ⟨dev, accepted, length.trans sized⟩
  · rw [HoldsPrimary, size]
    exact (same (512, 512) (by simp [GptGeometry.regions])).trans holds.primary
  · exact (same (g.entryLba.toNat * 512, g.arrayBytes.toNat) (by simp [GptGeometry.regions])).trans
      holds.array
  · refine ⟨?_, ?_⟩
    · rw [length]
      exact (same ((state.bytes.length / 512 - 1 - g.arraySectors.toNat) * 512,
        g.arrayBytes.toNat) (by simp [GptGeometry.regions])).trans holds.backup.array
    · rw [length, size]
      exact (same ((state.bytes.length / 512 - 1) * 512, 512)
        (by simp [GptGeometry.regions])).trans holds.backup.header

end Tables

/-! ## Where the partitions lie -/

section Regions

/-- A partition in the usable range is clear of everything a commit writes. -/
theorem apart_of_fits {g : GptGeometry} {total : Nat} {usable : UInt64 × UInt64}
    (usableOn : g.UsableOn total usable) {p : Partition} (fits : p.FitsGpt usable)
    {region : Nat × Nat} (member : region ∈ g.regions total) :
    Apart region (p.start.toNat, p.length.toNat) := by
  have apart := GptGeometry.regions_apart_usable usableOn member
  have order := usableOn.first_le_last
  have first := fits.first_le
  have last := fits.end_le
  have positive := fits.length_pos
  unfold Apart at apart ⊢
  simp only at apart ⊢
  omega

/-- Whole sectors that are not shared are whole regions that keep apart. -/
theorem apart_of_spans {usable : UInt64 × UInt64} {p q : Partition} (fits : p.FitsGpt usable)
    (also : q.FitsGpt usable) (apart : ¬ SharesSector p.span q.span) :
    Apart (p.start.toNat, p.length.toNat) (q.start.toNat, q.length.toNat) := by
  obtain ⟨first, last, span, firstEq, lastEq⟩ :=
    Partition.exists_sectorSpan fits.length_pos fits.bounded
  obtain ⟨otherFirst, otherLast, otherSpan, otherFirstEq, otherLastEq⟩ :=
    Partition.exists_sectorSpan also.length_pos also.bounded
  have positive := fits.length_pos
  have otherPositive := also.length_pos
  have aligned := fits.start_aligned
  have otherAligned := also.start_aligned
  rw [Partition.span_of_ok span, Partition.span_of_ok otherSpan, SharesSector,
    UInt64.le_iff_toNat_le, UInt64.le_iff_toNat_le] at apart
  unfold Apart
  simp only at apart ⊢
  omega

/-- What lies in a slot is a partition with that slot. -/
theorem slotRegion_cases (parts : List Partition) (slot : UInt32) :
    (∃ p ∈ parts, p.slot = some slot ∧
        slotRegion parts slot = (p.start.toNat, p.length.toNat)) ∨
      slotRegion parts slot = (0, 0) := by
  unfold slotRegion
  cases found : parts.find? fun p => decide (p.slot = some slot) with
  | none => exact .inr rfl
  | some p =>
      exact .inl ⟨p, List.mem_of_find?_eq_some found, by simpa using List.find?_some found, rfl⟩

/-- Different seats share no sector. -/
theorem Seating.apart_of_ne {g : GptGeometry} {usable : UInt64 × UInt64}
    {seats : List (Partition × UInt32)} (seating : Seating g usable seats)
    {seat other : Partition × UInt32} (member : seat ∈ seats) (also : other ∈ seats)
    (differ : seat ≠ other) : ¬ SharesSector seat.1.span other.1.span := by
  have symm : Std.Symm fun a b : Partition × UInt32 => ¬ SharesSector a.1.span b.1.span :=
    ⟨fun _ _ apart shares => apart shares.symm⟩
  exact (List.pairwise_map.mp seating.apart).forall member also differ

variable {crc32 : List UInt8 → UInt32} {state : ByteDevice} {partitions : List Partition}
  {diskGuid : Guid} {g : GptGeometry} {tails : EntryTails} {plan : GptPlan}
  (holds : HoldsPlan crc32 state partitions diskGuid g tails plan)

include holds

theorem HoldsPlan.eq_of_slot {seat other : Partition × UInt32}
    (member : seat ∈ partitions.zip plan.slots) (also : other ∈ partitions.zip plan.slots)
    (same : seat.2 = other.2) : seat = other :=
  List.inj_on_of_nodup_map holds.seating.distinct member also (congrArg UInt32.toNat same)

/-- A seat of the plan is where the partition in its slot lies. -/
theorem HoldsPlan.region_of_seat {seat : Partition × UInt32}
    (member : seat ∈ partitions.zip plan.slots) :
    slotRegion (DiskPartitions.listedParts crc32 state) seat.2 =
      (seat.1.start.toNat, seat.1.length.toNat) := by
  have present : ((DiskPartitions.listedParts crc32 state).find?
      fun p => decide (p.slot = some seat.2)).isSome := by
    rw [List.find?_isSome]
    exact ⟨_, holds.mem_listed.mpr ⟨seat, member, rfl⟩, decide_eq_true rfl⟩
  obtain ⟨p, found⟩ := Option.isSome_iff_exists.mp present
  obtain ⟨other, also, rfl⟩ := holds.mem_listed.mp (List.mem_of_find?_eq_some found)
  have own : (stored other.1 other.2).slot = some seat.2 := by simpa using List.find?_some found
  obtain rfl := holds.eq_of_slot also member (Option.some.inj own)
  rw [slotRegion, found]
  rfl

/-- A slot has a seat of the plan, or nothing lies in it. -/
theorem HoldsPlan.region_cases (slot : UInt32) :
    (∃ p, (p, slot) ∈ partitions.zip plan.slots) ∨
      slotRegion (DiskPartitions.listedParts crc32 state) slot = (0, 0) := by
  rcases slotRegion_cases (DiskPartitions.listedParts crc32 state) slot with
    ⟨p, listed, own, -⟩ | none
  · obtain ⟨seat, member, rfl⟩ := holds.mem_listed.mp listed
    obtain rfl := Option.some.inj own
    exact .inl ⟨seat.1, member⟩
  · exact .inr none

theorem HoldsPlan.region_inside (slot : UInt32) :
    (slotRegion (DiskPartitions.listedParts crc32 state) slot).1 +
      (slotRegion (DiskPartitions.listedParts crc32 state) slot).2 ≤ state.bytes.length := by
  rcases holds.region_cases slot with ⟨p, member⟩ | none
  · have fits := holds.seating.fits _ member
    have last := fits.end_le
    have positive := fits.length_pos
    have usableOn := holds.usableOn
    have room := usableOn.last_lt
    rw [holds.region_of_seat member]
    simp only at last ⊢
    omega
  · rw [none]
    exact Nat.zero_le _

theorem HoldsPlan.region_apart {region : Nat × Nat}
    (member : region ∈ g.regions (state.bytes.length / 512)) (slot : UInt32) :
    Apart region (slotRegion (DiskPartitions.listedParts crc32 state) slot) := by
  rcases holds.region_cases slot with ⟨p, listed⟩ | none
  · rw [holds.region_of_seat listed]
    exact apart_of_fits holds.usableOn (holds.seating.fits _ listed) member
  · rw [none]
    exact .inr (Nat.zero_le _)

/-- Partitions in different slots have no byte in common. -/
theorem HoldsPlan.slots_apart {slot other : UInt32} (differ : other ≠ slot) :
    Apart (slotRegion (DiskPartitions.listedParts crc32 state) slot)
      (slotRegion (DiskPartitions.listedParts crc32 state) other) := by
  rcases holds.region_cases slot with ⟨p, member⟩ | none
  · rcases holds.region_cases other with ⟨q, also⟩ | none
    · have seating := holds.seating
      rw [holds.region_of_seat member, holds.region_of_seat also]
      apply apart_of_spans (seating.fits _ member) (seating.fits _ also)
      exact seating.apart_of_ne member also fun same => differ (congrArg Prod.snd same).symm
    · rw [none]
      exact .inr (Nat.zero_le _)
  · rw [none]
    exact .inl (Nat.zero_le _)

/-- A listed partition is handed out whole. -/
theorem HoldsPlan.opens {index : Nat} {p : Partition}
    (found : (DiskPartitions.listedParts crc32 state)[index]? = some p) :
    ∃ slot, p.slot = some slot ∧
      slotRegion (DiskPartitions.listedParts crc32 state) slot =
        (p.start.toNat, p.length.toNat) ∧
      partitionsOpenSlice state (DiskPartitions.listedParts crc32 state) index =
        .ok ⟨p.start, p.length⟩ := by
  obtain ⟨seat, member, rfl⟩ := holds.mem_listed.mp (List.mem_of_getElem? found)
  have region := holds.region_of_seat member
  have inside := holds.region_inside seat.2
  have positive := (holds.seating.fits _ member).length_pos
  rw [region] at inside
  have size : state.toBlockRead.sizeBytes.toNat = state.bytes.length := state.toNat_sizeBytes
  have begins : seat.1.start < state.toBlockRead.sizeBytes := by
    rw [UInt64.lt_iff_toNat_lt, size]
    simp only at inside
    omega
  refine ⟨seat.2, rfl, region, ?_⟩
  rw [partitionsOpenSlice_of_lt found rfl begins]
  have whole : availableOnDevice seat.1.start seat.1.length state.toBlockRead.sizeBytes =
      seat.1.length := availableOnDevice_of_le (by rw [size]; exact inside)
  exact congrArg (fun length => (.ok ⟨seat.1.start, length⟩ : Except String OwnedSlice)) whole

end Regions

/-! ## Writing to a partition -/

section Writes

variable {crc32 : List UInt8 → UInt32} {state : ByteDevice} {partitions : List Partition}
  {diskGuid : Guid} {g : GptGeometry} {tails : EntryTails} {plan : GptPlan}
  (holds : HoldsPlan crc32 state partitions diskGuid g tails plan)

theorem exec_writePartition (index offset : Nat) (bytes : List UInt8) :
    (writePartition crc32 index offset bytes).exec state =
      match partitionsOpenSlice state (listedParts crc32 state) index with
      | .ok owned => (owned.writeAt offset bytes).exec state
      | .error why => (.error (.block (.custom why)), state) := by
  unfold writePartition
  rw [Fallible.exec_current_bind, Fallible.exec_ofExcept_bind]
  cases partitionsOpenSlice state (listedParts crc32 state) index <;> rfl

include holds

/-- A write to a partition is refused, or it writes inside the region of a slot. -/
theorem writePartition_cases (index offset : Nat) (bytes : List UInt8) :
    (∃ error, (writePartition crc32 index offset bytes).exec state = (.error error, state)) ∨
      ∃ p slot, (listedParts crc32 state)[index]? = some p ∧ p.slot = some slot ∧
        offset + bytes.length ≤ (slotRegion (listedParts crc32 state) slot).2 ∧
        ∃ inside, (writePartition crc32 index offset bytes).exec state = (.ok (), state.written
          ⟨(slotRegion (listedParts crc32 state) slot).1 + offset, bytes⟩ inside) := by
  rw [exec_writePartition]
  cases found : (listedParts crc32 state)[index]? with
  | none =>
      refine .inl ?_
      unfold partitionsOpenSlice
      rw [found]
      exact ⟨_, rfl⟩
  | some p =>
      obtain ⟨slot, own, region, opened⟩ := holds.opens found
      rw [opened]
      simp only [OwnedSlice.writeAt]
      by_cases fits : offset + bytes.length ≤ p.length.toNat
      · rw [if_pos fits]
        have held := holds.region_inside slot
        refine .inr ⟨p, slot, rfl, own, ?_, ?_, ?_⟩
        · rw [region]
          exact fits
        · rw [region] at held ⊢
          unfold Write.Inside
          simp only at held ⊢
          omega
        · rw [region] at held
          simp only [region]
          exact DeviceM.exec_writeAt_of_inside _
      · rw [if_neg fits]
        exact .inl ⟨_, rfl⟩

/-- Writing inside the region of a slot leaves the table alone. -/
theorem HoldsPlan.written {slot : UInt32} {offset : Nat} {bytes : List UInt8}
    (fits : offset + bytes.length ≤ (slotRegion (DiskPartitions.listedParts crc32 state) slot).2)
    (inside : (⟨(slotRegion (DiskPartitions.listedParts crc32 state) slot).1 + offset, bytes⟩ :
      Write UInt8).Inside state.bytes.length) :
    HoldsPlan crc32 (state.written _ inside) partitions diskGuid g tails plan := by
  refine holds.of_same (Write.length_apply inside) fun region member => ?_
  have apart := holds.region_apart member slot
  apply slice_splice_disjoint inside
  unfold Apart at apart
  simp only at apart ⊢
  omega

end Writes

/-! ## What every step keeps -/

/-- The disk holds a table of its set, and a partition of the set that has a slot starts where
the partition in that slot does. -/
structure SharesDisk (crc32 : List UInt8 → UInt32) (state : PartitionSet × ByteDevice) : Prop where
  gpt : state.1.tableKind = .gpt
  held : ∃ partitions diskGuid g tails plan,
    HoldsPlan crc32 state.2 partitions diskGuid g tails plan
  placed : ∀ p ∈ state.1.partitions, ∀ slot, p.slot = some slot →
    (slotRegion (listedParts crc32 state.2) slot).1 = p.start.toNat

section Edits

/-- The partitions after a call start and are seated as before, or have no slot yet. -/
theorem placed_of_apply {P : Option UInt32 → UInt64 → Prop} {set : PartitionSet} {edit : Edit}
    (held : ∀ p ∈ set.partitions, P p.slot p.start) (added : ∀ start, P none start) :
    ∀ p ∈ (edit.apply set).partitions, P p.slot p.start := by
  rcases Edit.apply_cases set edit with same | ⟨_, _, _, _, _, part, -, placed, same⟩ |
    ⟨index, same⟩ | ⟨_, _, index, sectors, -, same⟩
  · rw [same]
    exact held
  · rw [same]
    intro p member
    rcases List.mem_append.mp member with old | new
    · exact held p old
    · rw [List.mem_singleton.mp new, (PartitionSet.room_of_placed placed).2]
      exact added _
  · rw [same]
    apply PartitionSet.forall_refresh (P := fun p => P p.slot p.start) _ (fun _ => Iff.rfl)
    exact fun p member => held p (List.mem_of_mem_eraseIdx member)
  · rw [same]
    refine PartitionSet.forall_refresh (P := fun p => P p.slot p.start) _ (fun _ => Iff.rfl)
      fun p member => ?_
    obtain ⟨i, bound, rfl⟩ := List.mem_iff_getElem.mp member
    rw [List.length_modify] at bound
    simp only [List.getElem_modify]
    split
    · exact held set.partitions[i] (List.getElem_mem bound)
    · exact held set.partitions[i] (List.getElem_mem bound)

end Edits

section Commits

variable {crc32 : List UInt8 → UInt32} {set : PartitionSet} {dev : ByteDevice}

theorem snd_writeAndFlush : ((set.writeAndFlush crc32).exec dev).2 =
    ((set.writeTable crc32).exec dev).2 := by
  unfold PartitionSet.writeAndFlush
  rw [Fallible.exec_bind]
  cases result : (set.writeTable crc32).exec dev with
  | mk answer after =>
      cases answer with
      | error error => rfl
      | ok slots =>
          simp only
          rw [Fallible.exec_bind, DeviceM.exec_flush]
          cases after.flushed <;> rfl

/-- The device a commit leaves is the one the writer leaves, whether it flushes or not. -/
theorem device_of_commitMut : ((PartitionSet.commitMut crc32).exec (set, dev)).2.2 =
    ((set.writeTable crc32).exec dev).2 := by
  unfold PartitionSet.commitMut
  rw [Fallible.exec_current_bind, Fallible.exec_bind, Fallible.exec_onSecond, ← snd_writeAndFlush]
  cases ((set.writeAndFlush crc32).exec dev).1 <;> rfl

variable {slot : UInt32} {plan : GptPlan} {g : GptGeometry} {tails : EntryTails}
  {partitions : List Partition} {diskGuid : Guid}

/-- A partition that has a slot is seated there. -/
theorem seat_of_carried (accepted : plan.Accepted dev partitions g tails) {p : Partition}
    (member : p ∈ partitions) (own : p.slot = some slot) :
    (p, slot) ∈ partitions.zip plan.slots := by
  obtain ⟨given, seat⟩ := seat_of_mem accepted member
  have same : given = slot := accepted.own_slot _ seat slot own
  rwa [same] at seat

/-- A commit lays the stores out anew and keeps of each what stays inside its partition. -/
theorem step_committed (shares : SharesDisk crc32 (set, dev))
    (accepted : plan.Accepted dev set.partitions g tails) :
    Step (storeOf crc32 dev) (.lay (set.keptBytes crc32 dev))
      (storeOf crc32 (plan.committed crc32 diskGuid accepted)) := by
  have holds := @holdsPlan_committed crc32 _ _ diskGuid _ _ _ accepted
  have seated : ∀ slot, 0 < set.keptBytes crc32 dev slot → ∃ p,
      (p, slot) ∈ set.partitions.zip plan.slots ∧
      set.keptBytes crc32 dev slot ≤ p.length.toNat ∧
      (slotRegion (listedParts crc32 dev) slot).1 = p.start.toNat := by
    intro slot some_kept
    rcases slotRegion_cases set.partitions slot with ⟨p, member, own, region⟩ | none
    · refine ⟨p, seat_of_carried accepted member own, ?_, shares.placed p member slot own⟩
      rw [PartitionSet.keptBytes, region]
      exact Nat.min_le_left _ _
    · rw [PartitionSet.keptBytes, none, Nat.zero_min] at some_kept
      exact absurd some_kept (Nat.lt_irrefl 0)
  refine step_lay (fun slot => Nat.min_le_right _ _) (fun slot => ?_) fun slot some_kept => ?_
  · by_cases some_kept : 0 < set.keptBytes crc32 dev slot
    · obtain ⟨p, seat, fits, -⟩ := seated slot some_kept
      rw [length_storesIn (holds.region_inside slot), holds.region_of_seat seat]
      exact fits
    · omega
  · obtain ⟨p, seat, fits, start⟩ := seated slot some_kept
    rw [holds.region_of_seat seat, start]
    apply slice_applyAll_disjoint (writes_inside crc32 diskGuid accepted)
    intro write member
    have region : write.region ∈ g.regions (dev.bytes.length / 512) := by
      rw [← writes_region crc32 diskGuid accepted]
      exact List.mem_map_of_mem member
    have apart := apart_of_fits accepted.usableOn (accepted.seating.fits _ seat) region
    unfold Apart Write.region at apart
    simp only at apart ⊢
    omega

/-- What a commit that passes its checks leaves is shared again. -/
theorem sharesDisk_committed (gpt : set.tableKind = .gpt)
    (accepted : plan.Accepted dev set.partitions g tails) :
    SharesDisk crc32 (set, plan.committed crc32 diskGuid accepted) ∧
      SharesDisk crc32 (set.recordSlots plan.slots,
        plan.committed crc32 diskGuid accepted) := by
  have holds := @holdsPlan_committed crc32 _ _ diskGuid _ _ _ accepted
  refine ⟨⟨gpt, ⟨_, _, _, _, _, holds⟩, ?_⟩, ⟨gpt, ⟨_, _, _, _, _, holds⟩, ?_⟩⟩
  · intro p member slot own
    rw [holds.region_of_seat (seat_of_carried accepted member own)]
  · intro p member slot own
    obtain ⟨i, found⟩ := List.getElem?_of_mem member
    rw [PartitionSet.recordSlots, List.getElem?_mapIdx] at found
    obtain ⟨q, listed, rfl⟩ := Option.map_eq_some_iff.mp found
    obtain ⟨given, here, seat⟩ := mem_zip_of_getElem? accepted.length_slots listed
    simp only [here] at own ⊢
    obtain rfl := Option.some.inj own
    rw [holds.region_of_seat seat]

end Commits

/-! ## Whole runs -/

section Runs

variable {crc32 : List UInt8 → UInt32} {state : PartitionSet × ByteDevice}

variable {set : PartitionSet} {dev : ByteDevice}

theorem sharesDisk_edit (shares : SharesDisk crc32 (set, dev)) (change : Edit) :
    SharesDisk crc32 (change.apply set, dev) := by
  refine ⟨(Edit.sameTable_apply set change).tableKind.trans shares.gpt, shares.held, ?_⟩
  exact placed_of_apply (P := fun carried start => ∀ slot, carried = some slot →
    (slotRegion (listedParts crc32 dev) slot).1 = start.toNat) shares.placed fun _ => nofun

theorem sharesDisk_reload (shares : SharesDisk crc32 (set, dev)) :
    SharesDisk crc32 ((PartitionSet.fromProbe crc32 dev).toOption.getD set, dev) := by
  obtain ⟨partitions, diskGuid, g, tails, plan, holds⟩ := shares.held
  obtain ⟨origin, accepted, length⟩ := holds.accepted
  obtain ⟨again, found, reread⟩ :=
    fromProbe_of_holds crc32 accepted length holds.array holds.primary
  rw [found, Except.toOption, Option.getD_some]
  refine ⟨reread.tableKind, ⟨_, _, _, _, _, holds⟩, ?_⟩
  intro p member slot own
  rw [reread.partitions, ← holds.listedParts] at member
  obtain ⟨seat, present, rfl⟩ := holds.mem_listed.mp member
  obtain rfl := Option.some.inj own
  rw [holds.region_of_seat present]
  rfl

/-- A commit that fails its checks changes nothing; any other lays the stores out anew. -/
theorem sharesDisk_commit (shares : SharesDisk crc32 (set, dev)) :
    SharesDisk crc32 ((PartitionSet.commitMut crc32).exec (set, dev)).2 ∧
      StoreRun (storeOf crc32 dev) (DiskUse.commit.act crc32 (set, dev)).toList
        (storeOf crc32 ((PartitionSet.commitMut crc32).exec (set, dev)).2.2) := by
  have gpt : set.tableKind = .gpt := shares.gpt
  have device := @device_of_commitMut crc32 set dev
  have recorded := PartitionSet.commitMutOn_cases crc32 none set dev
  rw [PartitionSet.writeTable_gpt crc32 gpt] at device
  rw [PartitionSet.commitMutOn, PartitionSet.tablePlan, gpt] at recorded
  rw [DiskUse.act, PartitionSet.tablePlan, gpt]
  generalize ((PartitionSet.commitMut crc32).exec (set, dev)).2 = after at device recorded ⊢
  obtain ⟨again, other⟩ := after
  simp only at device recorded ⊢
  cases planned : gptPlan dev set.partitions set.gptGeometry set.gptEntryTails set.reserved with
  | error error =>
      rw [(planned_writeGptAssigningSlots crc32 dev set.partitions set.diskGuid set.gptGeometry
        set.gptEntryTails set.reserved).refused planned] at device
      rw [planned] at recorded
      rcases recorded with rfl | ⟨plan, made, -⟩
      · rw [device]
        exact ⟨shares, .nil⟩
      · cases made
  | ok made =>
      have accepted := gptPlan_eq_ok planned
      rw [writeGpt_of_plan crc32 planned] at device
      rw [planned] at recorded
      have shared := @sharesDisk_committed crc32 set dev made set.gptGeometry set.gptEntryTails
        set.diskGuid gpt accepted
      have step := @step_committed crc32 set dev made set.gptGeometry set.gptEntryTails
        set.diskGuid shares accepted
      rw [device]
      refine ⟨?_, .cons step .nil⟩
      rcases recorded with rfl | ⟨plan, given, rfl⟩
      · exact shared.1
      · cases given
        exact shared.2

/-- A write to a partition is refused, or it puts its bytes into the store of a slot. -/
theorem sharesDisk_write (shares : SharesDisk crc32 (set, dev)) (index offset : Nat)
    (bytes : List UInt8) :
    SharesDisk crc32 (set, ((writePartition crc32 index offset bytes).exec dev).2) ∧
      StoreRun (storeOf crc32 dev) ((DiskUse.write index offset bytes).act crc32 (set, dev)).toList
        (storeOf crc32 ((writePartition crc32 index offset bytes).exec dev).2) := by
  obtain ⟨partitions, diskGuid, g, tails, plan, holds⟩ := shares.held
  rw [DiskUse.act]
  rcases writePartition_cases holds index offset bytes with
    ⟨error, refused⟩ | ⟨p, slot, found, own, fits, inside, written⟩
  · rw [refused]
    exact ⟨shares, .nil⟩
  · have after := holds.written fits inside
    have same : listedParts crc32 (dev.written _ inside) = listedParts crc32 dev := by
      rw [after.listedParts, holds.listedParts]
    rw [written]
    refine ⟨⟨shares.gpt, ⟨_, _, _, _, _, after⟩, ?_⟩, ?_⟩
    · rw [same]
      exact shares.placed
    · have put := step_put (fun other differ => holds.slots_apart differ)
        (holds.region_inside slot) fits
      simp only [found, own, Except.isOk, Except.toBool, if_true, Option.bind_some,
        Option.map_some, Option.toList_some]
      rw [storeOf, storeOf, same]
      exact .cons put .nil

/-- What one step keeps, and what it does to the stores. -/
theorem sharesDisk_apply (shares : SharesDisk crc32 state) (use : DiskUse) :
    SharesDisk crc32 (use.apply crc32 state) ∧
      StoreRun (storeOf crc32 state.2) (use.act crc32 state).toList
        (storeOf crc32 (use.apply crc32 state).2) := by
  cases use with
  | edit change => exact ⟨sharesDisk_edit shares change, .nil⟩
  | reload => exact ⟨sharesDisk_reload shares, .nil⟩
  | commit => exact sharesDisk_commit shares
  | write index offset bytes => exact sharesDisk_write shares index offset bytes

/-- What a whole run keeps, and what it does to the stores. -/
theorem sharesDisk_applyAll (shares : SharesDisk crc32 state) (uses : List DiskUse) :
    SharesDisk crc32 (DiskUse.applyAll crc32 uses state) ∧
      StoreRun (storeOf crc32 state.2) (DiskUse.acts crc32 uses state)
        (storeOf crc32 (DiskUse.applyAll crc32 uses state).2) := by
  induction uses generalizing state with
  | nil => exact ⟨shares, .nil⟩
  | cons use uses ih =>
      obtain ⟨kept, first⟩ := sharesDisk_apply shares use
      obtain ⟨last, rest⟩ := ih kept
      exact ⟨last, first.append rest⟩

/-- A commit that succeeds leaves a disk that its set shares. -/
theorem sharesDisk_of_commit {start : PartitionSet} {disk : ByteDevice}
    (gpt : start.tableKind = .gpt)
    (committed : (PartitionSet.commitMut crc32).exec (start, disk) = (.ok (), (set, dev))) :
    SharesDisk crc32 (set, dev) := by
  have device := @device_of_commitMut crc32 start disk
  obtain ⟨plan, planned, recorded⟩ := PartitionSet.commitMut_eq_ok crc32 committed
  rw [PartitionSet.tablePlan, gpt] at planned
  obtain ⟨made, accepted, done⟩ := bind_eq_ok.mp planned
  cases done
  rw [committed, PartitionSet.writeTable_gpt crc32 gpt, writeGpt_of_plan crc32 accepted] at device
  simp only at device recorded
  rw [device, recorded]
  exact (sharesDisk_committed gpt (gptPlan_eq_ok accepted)).2

end Runs

/-- What a program finds on a disk after the uses of a run: the table lists every partition
without issues, in both copies, and each partition is a store that changed as the run says. -/
structure KeepsStores (crc32 : List UInt8 → UInt32) (uses : List DiskUse)
    (state last : PartitionSet × ByteDevice) : Prop where
  listed : ∃ parts, probeWithStatus crc32 last.2 = .ok (.gpt, parts, .primary) ∧
    ∀ p ∈ parts, p.issues = 0
  run : StoreRun (storeOf crc32 state.2) (DiskUse.acts crc32 uses state) (storeOf crc32 last.2)
  reads : ∀ index p, (listedParts crc32 last.2)[index]? = some p → ∃ slot, p.slot = some slot ∧
    partitionsOpenSlice last.2 (listedParts crc32 last.2) index = .ok ⟨p.start, p.length⟩ ∧
    last.2.readAt p.start.toNat p.length.toNat = .ok (storeOf crc32 last.2 slot)
  kept : ∀ slot place byte, (storeOf crc32 state.2 slot)[place]? = some byte →
    (∀ act ∈ DiskUse.acts crc32 uses state, act.Spares slot place) →
    (storeOf crc32 last.2 slot)[place]? =
      some ((DiskUse.acts crc32 uses state).foldl (fun byte act => act.leaves slot place byte) byte)

/-- Two partitions to be written to a blank disk. -/
def sharedSet : PartitionSet where
  tableKind := .gpt
  partitions := taggedPartitions
  diskSize := 4096
  diskGuid := unusedTypeGuid
  gptEntryTails := taggedTails
  gptGeometry := taggedGeometry
  reserved := []

theorem commitMut_sharedSet :
    (PartitionSet.commitMut CyclicSums.ieee).exec (sharedSet, eightSectors) =
      (.ok (), (sharedSet.recordSlots [0, 1], plainDisk)) := by
  have written : (sharedSet.writeTable CyclicSums.ieee).exec eightSectors =
      (.ok [0, 1], plainDisk) := by
    rw [PartitionSet.writeTable_gpt CyclicSums.ieee rfl]
    exact writeGpt_of_plan CyclicSums.ieee gptPlan_tagged
  have flushed := PartitionSet.writeAndFlush_of_writeTable CyclicSums.ieee written rfl
  unfold PartitionSet.commitMut
  rw [Fallible.exec_current_bind, Fallible.exec_bind, Fallible.exec_onSecond, flushed]
  rfl

theorem holdsPlan_plainDisk : HoldsPlan CyclicSums.ieee plainDisk taggedPartitions unusedTypeGuid
    taggedGeometry taggedTails taggedPlan :=
  holdsPlan_committed (gptPlan_eq_ok gptPlan_tagged)

/-- Two bytes are written to the first partition, the second one is removed, and the table is
committed and read back. -/
def sharedUses : List DiskUse :=
  [.write 0 5 [7, 8], .edit (.remove (.index 1)), .commit, .reload]

end DiskPartitions
