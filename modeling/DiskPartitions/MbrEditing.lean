import DiskPartitions.AcceptedPlans
import DiskPartitions.PartitionEdits
import DiskPartitions.RefusedCommits

/-!
# Committing an MBR and probing it again

What a probe finds after an MBR commit: the committed partitions, unless the
disk still carries a GPT signature at LBA 1, or the only entry left is a GPT
marker.
-/

namespace DiskPartitions

open Slices LittleEndian Refusals WriteJournal KeyOrder FallibleState

/-! ## The volumes of a committed table -/

section Volumes

variable {partitions : List Partition} {slots : List UInt32}

theorem mbrVolumes_of_volumes {seats : List (Partition × UInt32)}
    (volumes : ∀ seat ∈ seats, seat.1.IsMbrVolume) :
    mbrVolumes seats =
      (byKey seatIndex MbrLayout.entryCount seats).map fun seat => storedMbr seat.1 seat.2 := by
  unfold mbrVolumes
  rw [← List.filterMap_eq_map]
  apply List.filterMap_congr
  intro seat member
  obtain ⟨i, _, found⟩ := List.mem_filterMap.mp member
  exact if_pos (volumes seat (key_of_itemAt found).1)

/-- No volume is lost and none is repeated. -/
theorem mbrVolumes_perm {reserved : List ReservedEntry}
    (seating : MbrSeating reserved (partitions.zip slots))
    (volumes : ∀ p ∈ partitions, p.IsMbrVolume) :
    (mbrVolumes (partitions.zip slots)).Perm (List.zipWith storedMbr partitions slots) := by
  rw [mbrVolumes_of_volumes fun seat member => volumes seat.1 (List.of_mem_zip member).1,
    ← List.map_uncurry_zip_eq_zipWith]
  exact (byKey_perm seating.distinct seating.bounded).map _

/-- One partition is in a lower slot of the table than another. -/
def SlotBefore (p q : Partition) : Prop := ∃ i j, p.slot = some i ∧ q.slot = some j ∧ i < j

theorem pairwise_mbrVolumes (seats : List (Partition × UInt32)) :
    (mbrVolumes seats).Pairwise SlotBefore := by
  unfold mbrVolumes
  rw [List.pairwise_filterMap]
  refine (pairwise_byKey MbrLayout.entryCount seats).imp fun {first second} less p isFirst q
    isSecond => ?_
  split at isFirst
  · split at isSecond
    · cases isFirst
      cases isSecond
      exact ⟨_, _, rfl, rfl, less⟩
    · cases isSecond
  · cases isFirst

end Volumes

/-- The device is probed as the MBR the set's commit wrote: its partitions in slot
order, each in the slot the commit gave it. -/
def ReadsBackMbr (crc32 : List UInt8 → UInt32) (set : PartitionSet) (dev after : ByteDevice)
    (parts : List Partition) : Prop :=
  probe crc32 after = .ok (.mbr, parts) ∧ parts.Pairwise SlotBefore ∧
    ∃ slots, (set.writeAndFlush crc32).exec dev = (.ok slots, after) ∧
      slots.length = set.partitions.length ∧
      parts.Perm (List.zipWith storedMbr set.partitions slots) ∧
      ∀ seat ∈ set.partitions.zip slots, ∀ slot, seat.1.slot = some slot → seat.2 = slot

section Commits

variable (crc32 : List UInt8 → UInt32) {set : PartitionSet} {dev after : ByteDevice}

/-- A commit of an MBR set that succeeds has carried out an accepted plan. -/
theorem plan_of_commitMbr (mbr : set.tableKind = .mbr)
    (committed : (set.commit crc32).exec dev = (.ok (), after)) :
    ∃ plan : MbrPlan, ∃ accepted : plan.Accepted dev set.partitions set.reserved,
      (set.writeAndFlush crc32).exec dev = (.ok plan.slots, after) ∧
        after = plan.committed accepted := by
  obtain ⟨slots, flushed⟩ := PartitionSet.commit_eq_ok crc32 committed
  have written := PartitionSet.writeAndFlush_eq_ok crc32 flushed
  unfold PartitionSet.writeTable at written
  rw [mbr] at written
  obtain ⟨plan, accepted, rfl, same⟩ := plan_of_writeMbr written
  exact ⟨plan, accepted, flushed, same⟩

/-- An accepted plan is committed when the flush succeeds. -/
theorem commitMbr_of_plan (mbr : set.tableKind = .mbr) {plan : MbrPlan}
    (planned : mbrPlan dev set.partitions set.reserved = .ok plan)
    (flushed : dev.flushed = .ok ()) :
    (set.commit crc32).exec dev = (.ok (), plan.committed (mbrPlan_eq_ok planned)) := by
  have written : (set.writeTable crc32).exec dev =
      (.ok plan.slots, plan.committed (mbrPlan_eq_ok planned)) := by
    unfold PartitionSet.writeTable
    rw [mbr]
    exact writeMbr_of_plan planned
  exact PartitionSet.commit_of_writeAndFlush crc32
    (PartitionSet.writeAndFlush_of_writeTable crc32 written flushed)

/-- The committed partitions are found when nothing else claims the disk. -/
theorem readsBackMbr_of_probe {plan : MbrPlan}
    (accepted : plan.Accepted dev set.partitions set.reserved)
    (flushed : (set.writeAndFlush crc32).exec dev = (.ok plan.slots, after))
    (volumes : ∀ p ∈ set.partitions, p.IsMbrVolume)
    (probed : probeInner crc32 after false =
      .ok (.mbr, mbrVolumes (set.partitions.zip plan.slots), .mbr)) :
    ReadsBackMbr crc32 set dev after (mbrVolumes (set.partitions.zip plan.slots)) := by
  refine ⟨?_, pairwise_mbrVolumes _, plan.slots, flushed, accepted.length_slots,
    mbrVolumes_perm accepted.seating volumes, accepted.own_slot⟩
  rw [probe, probed]
  rfl

theorem IsVolumeType.ne_marker {typeByte : UInt8} (volume : IsVolumeType typeByte) :
    typeByte ≠ MbrTypes.gptProtective := by
  rintro rfl
  exact absurd volume.2 (by decide)

/-- The type byte of a volume is neither empty nor a GPT marker. -/
theorem Partition.IsMbrVolume.typeByte {p : Partition} (volume : p.IsMbrVolume) :
    ∃ typeByte active, p.kind = .mbr typeByte active ∧ IsVolumeType typeByte := by
  obtain ⟨fields, own, volume⟩ := volume
  cases kind : p.kind with
  | mbr typeByte active =>
      rw [kind] at own
      cases own
      exact ⟨typeByte, active, rfl, volume⟩
  | gpt typeGuid attributes =>
      rw [kind] at own
      cases own
  | whole =>
      rw [kind] at own
      cases own

theorem seat_type_ne {seats : List (Partition × UInt32)}
    (volumes : ∀ seat ∈ seats, seat.1.IsMbrVolume) {seat : Partition × UInt32}
    (member : seat ∈ seats) :
    IsVolumeType ((seat.1.kind.mbrFields.map Prod.fst).getD 0) := by
  obtain ⟨typeByte, active, kind, volume⟩ := (volumes seat member).typeByte
  rw [kind]
  exact volume

end Commits

end DiskPartitions
