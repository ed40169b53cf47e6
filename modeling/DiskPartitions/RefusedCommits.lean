import DiskPartitions.GptCommit
import DiskPartitions.MbrCommit
import DiskPartitions.PartitionSets

/-!
# Refused commits

A writer that fails has written nothing, and a commit that fails, be it only at
the flush, leaves the set it was asked to write as it was.
-/

namespace DiskPartitions

open Slices Refusals WriteJournal FallibleState

namespace PartitionSet

variable (crc32 : List UInt8 → UInt32) {set : PartitionSet} {dev after : ByteDevice}

theorem unchanged_of_writeTable {error : Error}
    (refused : (set.writeTable crc32).exec dev = (.error error, after)) : after = dev := by
  unfold writeTable at refused
  split at refused
  · exact unchanged_of_writeGpt crc32 refused
  · exact unchanged_of_writeMbr refused

/-- A write and flush that succeeds wrote the table and then flushed. -/
theorem writeAndFlush_eq_ok {slots : List UInt32}
    (written : (set.writeAndFlush crc32).exec dev = (.ok slots, after)) :
    (set.writeTable crc32).exec dev = (.ok slots, after) := by
  obtain ⟨_, middle, first, rest⟩ := Fallible.exec_bind_eq_ok written
  obtain ⟨_, last, flushed, done⟩ := Fallible.exec_bind_eq_ok rest
  cases done
  have same : middle = after := congrArg Prod.snd flushed
  rw [first, same]

theorem flushed_of_writeAndFlush {slots : List UInt32}
    (written : (set.writeAndFlush crc32).exec dev = (.ok slots, after)) :
    after.flushed = .ok () := by
  obtain ⟨_, middle, _, rest⟩ := Fallible.exec_bind_eq_ok written
  obtain ⟨done, last, flushed, finished⟩ := Fallible.exec_bind_eq_ok rest
  cases finished
  rw [DeviceM.exec_flush] at flushed
  obtain ⟨answer, same⟩ := Prod.mk.inj flushed
  subst same
  cases result : middle.flushed with
  | error error =>
      rw [result] at answer
      cases answer
  | ok value => rfl

theorem writeAndFlush_of_writeTable {slots : List UInt32}
    (written : (set.writeTable crc32).exec dev = (.ok slots, after))
    (flushed : after.flushed = .ok ()) :
    (set.writeAndFlush crc32).exec dev = (.ok slots, after) := by
  unfold writeAndFlush
  rw [Fallible.exec_bind, written]
  simp only
  rw [Fallible.exec_bind, DeviceM.exec_flush, flushed]
  rfl

theorem writeTable_gpt (gpt : set.tableKind = .gpt) :
    set.writeTable crc32 = writeGptAssigningSlots crc32 set.partitions set.diskGuid
      set.gptGeometry set.gptEntryTails set.reserved := by
  unfold writeTable
  rw [gpt]

/-- A refused table is a refused commit. -/
theorem commit_of_refused {error : Error}
    (refused : (set.writeTable crc32).exec dev = (.error error, after)) :
    (set.commit crc32).exec dev = (.error error, after) := by
  unfold commit writeAndFlush
  rw [Fallible.exec_bind, Fallible.exec_bind, refused]

theorem commit_eq_ok {result : Unit}
    (committed : (set.commit crc32).exec dev = (.ok result, after)) :
    ∃ slots, (set.writeAndFlush crc32).exec dev = (.ok slots, after) := by
  obtain ⟨slots, middle, first, done⟩ := Fallible.exec_bind_eq_ok committed
  cases done
  exact ⟨slots, first⟩

theorem commit_of_writeAndFlush {slots : List UInt32}
    (written : (set.writeAndFlush crc32).exec dev = (.ok slots, after)) :
    (set.commit crc32).exec dev = (.ok (), after) := by
  unfold commit
  rw [Fallible.exec_bind, written]
  rfl

/-- Slots are recorded after everything that can fail. -/
theorem unchanged_of_commitMut {error : Error} {state : PartitionSet × ByteDevice}
    (refused : (commitMut crc32).exec (set, dev) = (.error error, state)) : state.1 = set := by
  unfold commitMut at refused
  rw [Fallible.exec_current_bind, Fallible.exec_bind, Fallible.exec_onSecond] at refused
  cases result : ((set.writeAndFlush crc32).exec dev).1 with
  | error error =>
      rw [result] at refused
      cases refused
      rfl
  | ok slots =>
      rw [result] at refused
      cases refused

end PartitionSet

/-- A refused write leaves every byte of the device, and a refused commit every
partition of the set, as it was. -/
theorem refused_commit_changes_nothing (crc32 : List UInt8 → UInt32) (dev : ByteDevice)
    (partitions : List Partition) (reserved : List ReservedEntry) (g : GptGeometry)
    (tails : EntryTails) (diskGuid : Guid) (set : PartitionSet) :
    (∀ error after,
      (writeGptAssigningSlots crc32 partitions diskGuid g tails reserved).exec dev =
        (.error error, after) → after.bytes = dev.bytes) ∧
    (∀ error after,
      (writeMbrAssigningSlots partitions reserved).exec dev = (.error error, after) →
        after.bytes = dev.bytes) ∧
    ∀ error after,
      (PartitionSet.commitMut crc32).exec (set, dev) = (.error error, after) →
        after.1.partitions = set.partitions := by
  refine ⟨fun error after refused => ?_, fun error after refused => ?_,
    fun error after refused => ?_⟩
  · rw [unchanged_of_writeGpt crc32 refused]
  · rw [unchanged_of_writeMbr refused]
  · rw [PartitionSet.unchanged_of_commitMut crc32 refused]

/-- Eight sectors whose flush fails. -/
def unflushable : ByteDevice :=
  { eightSectors with flushed := .error (.custom "flush failed") }

/-- An MBR with one partition over the sectors 1 and 2. -/
def oneVolumeSet : PartitionSet :=
  { PartitionSet.emptyMbr 4096 with
    partitions := [{ smallPartition with start := 512, kind := .mbr MbrTypes.linux false }] }

theorem mbrPlan_unflushable :
    (mbrPlan unflushable oneVolumeSet.partitions []).map MbrPlan.slots = .ok [0] := by
  decide +kernel

theorem commitMut_unflushable :
    ∃ after, (PartitionSet.commitMut CyclicSums.ieee).exec (oneVolumeSet, unflushable) =
      (.error (.block (.custom "flush failed")), (oneVolumeSet, after)) := by
  have planned := mbrPlan_unflushable
  cases made : mbrPlan unflushable oneVolumeSet.partitions [] with
  | error error =>
      rw [made] at planned
      cases planned
  | ok plan =>
      refine ⟨plan.committed (mbrPlan_eq_ok made), ?_⟩
      have written : (oneVolumeSet.writeAndFlush CyclicSums.ieee).exec unflushable =
          (.error (.block (.custom "flush failed")), plan.committed (mbrPlan_eq_ok made)) := by
        change ((writeMbrAssigningSlots oneVolumeSet.partitions [] >>= fun slots => do
          DeviceM.flush
          return slots).exec unflushable) = _
        rw [Fallible.exec_bind, writeMbr_of_plan made]
        rfl
      unfold PartitionSet.commitMut
      rw [Fallible.exec_current_bind, Fallible.exec_bind, Fallible.exec_onSecond, written]

/-- The flush of a written table fails and the partition still has no slot; a foreign
partition and an array of no entries are refused before any write. -/
theorem refused_commit_unflushable :
    (∃ after, (PartitionSet.commitMut CyclicSums.ieee).exec (oneVolumeSet, unflushable) =
        (.error (.block (.custom "flush failed")), after) ∧
      after.1.partitions.map Partition.slot = [none]) ∧
    (∃ after, (writeMbrAssigningSlots [smallPartition] []).exec unflushable =
        (.error (.invalid "non-MBR partition kind in MBR write"), after) ∧
      after.bytes = unflushable.bytes) ∧
    ∃ after, (writeGptAssigningSlots CyclicSums.ieee [smallPartition] unusedTypeGuid
        { smallGeometry with numEntries := 0 } (fun _ => none) []).exec unflushable =
        (.error (.invalid "a GPT with no entry slots"), after) ∧
      after.bytes = unflushable.bytes := by
  obtain ⟨state, failed⟩ := commitMut_unflushable
  have foreignPlan : mbrPlan unflushable [smallPartition] [] =
      .error (.invalid "non-MBR partition kind in MBR write") := by decide +kernel
  have noEntriesPlan : gptPlan unflushable [smallPartition]
      { smallGeometry with numEntries := 0 } (fun _ => none) [] =
      .error (.invalid "a GPT with no entry slots") := by decide +kernel
  have foreign := (planned_writeMbrAssigningSlots unflushable [smallPartition] []).refused
    foreignPlan
  have noEntries := (planned_writeGptAssigningSlots CyclicSums.ieee unflushable [smallPartition]
    unusedTypeGuid { smallGeometry with numEntries := 0 } (fun _ => none) []).refused
    noEntriesPlan
  obtain ⟨gpt, mbr, same⟩ := refused_commit_changes_nothing CyclicSums.ieee unflushable
    [smallPartition] [] { smallGeometry with numEntries := 0 } (fun _ => none) unusedTypeGuid
    oneVolumeSet
  refine ⟨⟨_, failed, ?_⟩, ⟨_, foreign, mbr _ _ foreign⟩, ⟨_, noEntries, gpt _ _ noEntries⟩⟩
  rw [same _ _ failed]
  rfl

end DiskPartitions
