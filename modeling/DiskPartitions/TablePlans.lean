import DiskPartitions.RefusedCommits

/-!
# Commits as plans

Both writers settle everything before their first write.  A commit is therefore a
plan, its writes, the flush and the recording of slots, in this order, and a device
that fails at a write or at the flush stops it before the slots are recorded.
-/

namespace DiskPartitions

open Slices LittleEndian CheckedWords Refusals WriteJournal KeyOrder FallibleState

/-- What the checks of a GPT commit leave, one by one. -/
structure GptPlan.Made (plan : GptPlan) (dev : ByteDevice) (partitions : List Partition)
    (g : GptGeometry) (tails : EntryTails) (lba0 : List ReservedEntry) : Prop where
  writable : ¬ dev.writable = false
  usable : g.usableRange (dev.sizeBytes / sectorSize) = .ok plan.usable
  few : ¬ g.numEntries.toNat < partitions.length
  spans : partitions.mapM (validatedSpan plan.usable.1 plan.usable.2) = .ok plan.spans
  clear : ¬ (markOverlaps plan.spans).any id = true
  slots : assignSlots partitions g.numEntries = .ok plan.slots
  array : buildEntryArray g tails (partitions.zip plan.slots) = .ok plan.array
  lba0 : plannedLba0 dev partitions lba0 = .ok plan.lba0

theorem gptPlan_iff {dev : ByteDevice} {partitions : List Partition} {g : GptGeometry}
    {tails : EntryTails} {lba0 : List ReservedEntry} {plan : GptPlan} :
    gptPlan dev partitions g tails lba0 = .ok plan ↔ plan.Made dev partitions g tails lba0 := by
  unfold gptPlan
  constructor
  · intro planned
    obtain ⟨writable, planned⟩ := refuseIf_bind_eq_ok.mp planned
    obtain ⟨_, usable, planned⟩ := bind_eq_ok.mp planned
    obtain ⟨few, planned⟩ := refuseIf_bind_eq_ok.mp planned
    obtain ⟨_, spans, planned⟩ := bind_eq_ok.mp planned
    obtain ⟨clear, planned⟩ := refuseIf_bind_eq_ok.mp planned
    obtain ⟨_, slots, planned⟩ := bind_eq_ok.mp planned
    obtain ⟨_, array, planned⟩ := bind_eq_ok.mp planned
    obtain ⟨_, lba0, planned⟩ := bind_eq_ok.mp planned
    cases planned
    exact ⟨writable, usable, few, spans, clear, slots, array, lba0⟩
  · rintro ⟨writable, usable, few, spans, clear, slots, array, lba0⟩
    simp only [refuseIf_of_not writable, ok_bind, usable, refuseIf_of_not few, spans,
      refuseIf_of_not clear, slots, array, lba0]
    rfl

/-- What a commit has settled before its first write: the slot of each partition, the
table (the entry array of a GPT, LBA 0 of an MBR) and the writes. -/
structure TablePlan where
  slots : List UInt32
  table : List UInt8
  writes : List (Write UInt8)

namespace PartitionSet

section Checksums

variable (crc32 : List UInt8 → UInt32)

/-- The plan of the set's commit to a device. -/
def tablePlan (set : PartitionSet) (dev : ByteDevice) : Except Error TablePlan :=
  match set.tableKind with
  | .gpt => do
      let plan ← gptPlan dev set.partitions set.gptGeometry set.gptEntryTails set.reserved
      return ⟨plan.slots, plan.array,
        plan.writes crc32 set.diskGuid set.gptGeometry (dev.sizeBytes / sectorSize)⟩
  | .mbr => do
      let plan ← mbrPlan dev set.partitions set.reserved
      return ⟨plan.slots, plan.sector, [⟨0, plan.sector⟩]⟩

/-- `commit_mut` on a device that may fail: with a fault, the device carries out the
given number of writes and then answers with the error, the flush being the call
after the last write. -/
def commitMutOn (fault : Option (Nat × BlockError)) :
    Fallible Error (PartitionSet × ByteDevice) Unit :=
  match fault with
  | none => commitMut crc32
  | some (done, error) => do
      let state ← Fallible.current
      let plan ← Fallible.ofExcept (state.1.tablePlan crc32 state.2)
      Fallible.onSecond (DeviceM.writeAll (plan.writes.take done))
      Fallible.ofExcept (.error (.block error))

variable {set : PartitionSet} {dev : ByteDevice} {plan : TablePlan}

/-- Writing the table is its plan followed by the plan's writes. -/
theorem planned_writeTable (set : PartitionSet) (dev : ByteDevice) :
    Fallible.Planned (set.writeTable crc32) (set.tablePlan crc32 dev)
      (fun plan => do
        DeviceM.writeAll plan.writes
        return plan.slots) dev := by
  unfold writeTable tablePlan Fallible.Planned
  cases set.tableKind with
  | gpt =>
      have run := planned_writeGptAssigningSlots crc32 dev set.partitions set.diskGuid
        set.gptGeometry set.gptEntryTails set.reserved
      unfold Fallible.Planned at run
      simp only
      rw [run]
      cases gptPlan dev set.partitions set.gptGeometry set.gptEntryTails set.reserved <;> rfl
  | mbr =>
      have run := planned_writeMbrAssigningSlots dev set.partitions set.reserved
      unfold Fallible.Planned at run
      simp only
      rw [run]
      cases mbrPlan dev set.partitions set.reserved with
      | error error => rfl
      | ok plan =>
          simp only [ok_bind, pure_eq_ok, DeviceM.writeAll, bind_assoc, pure_bind]

/-- A commit that succeeds has carried out its plan and recorded the plan's slots. -/
theorem commitMut_eq_ok {state : PartitionSet × ByteDevice}
    (committed : (commitMut crc32).exec (set, dev) = (.ok (), state)) :
    ∃ plan, set.tablePlan crc32 dev = .ok plan ∧ state.1 = set.recordSlots plan.slots := by
  unfold commitMut at committed
  rw [Fallible.exec_current_bind] at committed
  obtain ⟨slots, middle, first, rest⟩ := Fallible.exec_bind_eq_ok committed
  rw [Fallible.exec_onSecond] at first
  cases rest
  cases planned : set.tablePlan crc32 dev with
  | error error =>
      have refused := (planned_writeTable crc32 set dev).refused planned
      unfold writeAndFlush at first
      rw [Fallible.exec_bind, refused] at first
      cases first
  | ok plan =>
      cases result : (set.writeAndFlush crc32).exec dev with
      | mk answer after =>
          rw [result] at first
          cases first
          have written := writeAndFlush_eq_ok crc32 result
          rw [(planned_writeTable crc32 set dev).accepted planned] at written
          obtain ⟨_, _, _, done⟩ := Fallible.exec_bind_eq_ok written
          cases done
          exact ⟨plan, rfl, rfl⟩

/-- Everything a commit can do to the set: record the slots of its plan, or nothing. -/
theorem commitMutOn_cases (fault : Option (Nat × BlockError)) (set : PartitionSet)
    (dev : ByteDevice) :
    ((commitMutOn crc32 fault).exec (set, dev)).2.1 = set ∨
      ∃ plan, set.tablePlan crc32 dev = .ok plan ∧
        ((commitMutOn crc32 fault).exec (set, dev)).2.1 = set.recordSlots plan.slots := by
  cases fault with
  | none =>
      cases result : (commitMut crc32).exec (set, dev) with
      | mk answer state =>
          cases answer with
          | error error =>
              exact .inl (by rw [commitMutOn, result]; exact unchanged_of_commitMut crc32 result)
          | ok done =>
              obtain ⟨plan, planned, recorded⟩ := commitMut_eq_ok crc32 result
              exact .inr ⟨plan, planned, by rw [commitMutOn, result]; exact recorded⟩
  | some broken =>
      refine .inl ?_
      obtain ⟨done, error⟩ := broken
      simp only [commitMutOn]
      rw [Fallible.exec_current_bind, Fallible.exec_ofExcept_bind]
      cases set.tablePlan crc32 dev with
      | error error => rfl
      | ok plan =>
          simp only
          rw [Fallible.exec_bind, Fallible.exec_onSecond]
          cases ((DeviceM.writeAll (plan.writes.take done)).exec dev).1 <;> rfl

end Checksums

/-! ## The slots of a plan -/

/-- How many slots the set's table has. -/
def tableSlots (set : PartitionSet) : UInt32 :=
  match set.tableKind with
  | .gpt => set.gptGeometry.numEntries
  | .mbr => UInt32.ofNat MbrLayout.entryCount

/-- The slots of the table that its reserved entries hold. -/
def keptSlots (set : PartitionSet) : List UInt32 :=
  match set.tableKind with
  | .gpt => []
  | .mbr => set.reserved.map ReservedEntry.slot

/-- The slots a commit gives the partitions. -/
def assignedSlots (set : PartitionSet) : Except Error (List UInt32) :=
  assignSlotsWithTaken set.partitions set.tableSlots set.keptSlots

theorem slots_of_gptPlan {dev : ByteDevice} {partitions : List Partition} {g : GptGeometry}
    {tails : EntryTails} {lba0 : List ReservedEntry} {plan : GptPlan}
    (planned : gptPlan dev partitions g tails lba0 = .ok plan) :
    assignSlots partitions g.numEntries = .ok plan.slots :=
  (gptPlan_iff.mp planned).slots

theorem assignedSlots_of_tablePlan {crc32 : List UInt8 → UInt32} {set : PartitionSet}
    {dev : ByteDevice} {plan : TablePlan} (planned : set.tablePlan crc32 dev = .ok plan) :
    set.assignedSlots = .ok plan.slots := by
  unfold tablePlan at planned
  unfold assignedSlots tableSlots keptSlots
  cases kind : set.tableKind with
  | gpt =>
      rw [kind] at planned
      obtain ⟨inner, made, done⟩ := bind_eq_ok.mp planned
      cases done
      exact slots_of_gptPlan made
  | mbr =>
      rw [kind] at planned
      obtain ⟨inner, made, done⟩ := bind_eq_ok.mp planned
      cases done
      exact slots_of_mbrPlan made

end PartitionSet

end DiskPartitions
