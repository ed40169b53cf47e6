import DiskPartitions.MbrRoundTrip
import DiskPartitions.ProbedSets
import DiskPartitions.SoundEdits
import DiskPartitions.TablePlans

/-!
# A partition's number never changes

A set is edited and committed in any order, and some of its commits fail.  The slots
its partitions carry stay distinct, inside the table and off the reserved entries, so
every commit finds a seat for everybody; and a partition that carries a slot keeps it,
in the set and in every table written from then on, until it is removed.
-/

namespace DiskPartitions

open Slices LittleEndian CheckedWords Refusals WriteJournal KeyOrder FallibleState

/-! ## Runs of edits and commits -/

/-- One call on a set: an edit, or a `commit_mut` to a device, which fails when a fault
is given. -/
inductive Call
  | edit (change : Edit)
  | commit (dev : ByteDevice) (fault : Option (Nat × BlockError))

namespace Call

variable (crc32 : List UInt8 → UInt32)

/-- The set a call leaves, whether it succeeds or fails. -/
def apply (set : PartitionSet) : Call → PartitionSet
  | edit change => change.apply set
  | commit dev fault => ((PartitionSet.commitMutOn crc32 fault).exec (set, dev)).2.1

/-- The set a run of calls leaves. -/
def applyAll (calls : List Call) (set : PartitionSet) : PartitionSet :=
  calls.foldl (apply crc32) set

/-- Where the partition in place `j` is after the call, unless the call removes it. -/
def destination (set : PartitionSet) (call : Call) (j : Nat) : Option Nat :=
  match call with
  | edit (.remove named) =>
      match set.resolve named with
      | .ok index => if j = index then none else some (if j < index then j else j - 1)
      | .error _ => some j
  | _ => some j

/-- Where the partition in place `j` is after a run, unless a call of the run removes it. -/
def destinationAll : List Call → PartitionSet → Nat → Option Nat
  | [], _, j => some j
  | call :: calls, set, j =>
      (call.destination set j).bind (destinationAll calls (call.apply crc32 set))

end Call

/-- A set a run may start from. -/
inductive PartitionSet.Initial (crc32 : List UInt8 → UInt32) : PartitionSet → Prop
  | emptyGpt (diskSize : UInt64) (drawn : Bytes16) : Initial crc32 (.emptyGpt diskSize drawn)
  | emptyMbr (diskSize : UInt64) : Initial crc32 (.emptyMbr diskSize)
  | probed (dev : BlockRead) (set : PartitionSet)
      (read : PartitionSet.fromProbe crc32 dev = .ok set) : Initial crc32 set

/-! ## The invariant -/

/-- The recorded slots are distinct, inside the table and, on an MBR, off the reserved
entries, and there is a slot for every partition. -/
structure PartitionSet.SlotsFit (set : PartitionSet) : Prop where
  distinct : (set.keptSlots ++ set.partitions.filterMap Partition.slot).Nodup
  bounded : ∀ slot ∈ set.keptSlots ++ set.partitions.filterMap Partition.slot,
    slot.toNat < set.tableSlots.toNat
  room : set.partitions.length + set.keptSlots.length ≤ set.tableSlots.toNat

namespace PartitionSet

variable {set : PartitionSet}

/-- Slots that fit never stop a commit. -/
theorem SlotsFit.exists_assigned (fit : set.SlotsFit) :
    ∃ slots, set.assignedSlots = .ok slots :=
  exists_assignSlots fit.distinct fit.bounded fit.room

/-- A change that keeps the table and thins out the slots keeps the fit. -/
theorem SlotsFit.of_sublist (fit : set.SlotsFit) {other : PartitionSet}
    (same : Edit.SameTable set other)
    (sublist : (other.partitions.filterMap Partition.slot).Sublist
      (set.partitions.filterMap Partition.slot))
    (room : other.partitions.length + other.keptSlots.length ≤ other.tableSlots.toNat) :
    other.SlotsFit := by
  have kept : other.keptSlots = set.keptSlots := by
    unfold keptSlots
    rw [same.tableKind, same.reserved]
  have table : other.tableSlots = set.tableSlots := by
    unfold tableSlots
    rw [same.tableKind, same.gptGeometry]
  have all := (List.Sublist.refl set.keptSlots).append sublist
  refine ⟨?_, ?_, room⟩
  · rw [kept]
    exact fit.distinct.sublist all
  · rw [kept, table]
    exact fun slot member => fit.bounded slot (all.subset member)

/-- Refreshing the overlap bits keeps every slot. -/
theorem map_slot_refresh (set : PartitionSet) :
    set.refreshOverlapIssues.partitions.map Partition.slot = set.partitions.map Partition.slot :=
  map_refresh (fun _ _ => rfl) set

theorem map_slot_modify (partitions : List Partition) (index : Nat) (sectors : UInt64) :
    (partitions.modify index (setLength sectors)).map Partition.slot =
      partitions.map Partition.slot := by
  apply List.ext_getElem?
  intro j
  rw [List.getElem?_map, List.getElem?_map, List.getElem?_modify]
  cases partitions[j]? with
  | none => rfl
  | some p =>
      simp only [Option.map_eq_map, Option.map_some]
      split <;> rfl

/-- A call that adds leaves room for what it adds. -/
theorem room_of_placed {startHint : Option UInt64} {length : UInt64} {typeId : PartitionTypeId}
    {label : Option String} {drawn : Bytes16} {part : Partition}
    (placed : set.place startHint length typeId label drawn = .ok part) :
    set.partitions.length + set.keptSlots.length < set.tableSlots.toNat ∧ part.slot = none := by
  obtain ⟨_, _, _, found⟩ := place_eq_ok placed
  refine ⟨?_, found.slot⟩
  unfold keptSlots tableSlots
  cases kind : set.tableKind with
  | gpt => exact found.gpt_room kind
  | mbr =>
      rw [List.length_map]
      exact found.mbr_room kind

theorem slotsFit_edit (fit : set.SlotsFit) (edit : Edit) : (edit.apply set).SlotsFit := by
  have same := Edit.sameTable_apply set edit
  have kept : (edit.apply set).keptSlots = set.keptSlots := by
    unfold keptSlots
    rw [same.tableKind, same.reserved]
  have table : (edit.apply set).tableSlots = set.tableSlots := by
    unfold tableSlots
    rw [same.tableKind, same.gptGeometry]
  have room := fit.room
  rcases Edit.apply_cases set edit with unchanged | ⟨_, _, _, _, _, part, _, placed, changed⟩ |
    ⟨index, changed⟩ | ⟨_, _, index, sectors, _, changed⟩
  · rw [unchanged]
    exact fit
  · obtain ⟨enough, unseated⟩ := room_of_placed placed
    refine fit.of_sublist same ?_ ?_
    · rw [changed, List.filterMap_append, List.filterMap_cons_none unseated, List.filterMap_nil,
        List.append_nil]
    · rw [kept, table, changed, List.length_append, List.length_singleton]
      omega
  · have slots : (edit.apply set).partitions.map Partition.slot =
        (set.partitions.eraseIdx index).map Partition.slot := by
      rw [changed]
      exact map_slot_refresh _
    refine fit.of_sublist same ?_ ?_
    · rw [filterMap_slot, slots, ← filterMap_slot]
      exact (List.eraseIdx_sublist _ _).filterMap _
    · have length := congrArg List.length slots
      rw [List.length_map, List.length_map] at length
      have fewer := (List.eraseIdx_sublist set.partitions index).length_le
      rw [kept, table, length]
      omega
  · have slots : (edit.apply set).partitions.map Partition.slot =
        set.partitions.map Partition.slot := by
      rw [changed]
      exact (map_slot_refresh _).trans (map_slot_modify _ _ _)
    refine fit.of_sublist same ?_ ?_
    · rw [filterMap_slot, slots, ← filterMap_slot]
    · have length := congrArg List.length slots
      rw [List.length_map, List.length_map] at length
      rw [kept, table, length]
      exact room

/-- Recording the slots of a commit puts each partition where it was written. -/
theorem map_slot_recordSlots {slots : List UInt32}
    (lengths : slots.length = set.partitions.length) :
    (set.recordSlots slots).partitions.map Partition.slot = slots.map some := by
  unfold recordSlots
  apply List.ext_getElem
  · simp [lengths]
  · intro i _ inside
    rw [List.length_map] at inside
    simp [List.getElem?_eq_getElem inside]

theorem slotsFit_recordSlots {slots : List UInt32} (fit : set.SlotsFit)
    (assigned : set.assignedSlots = .ok slots) : (set.recordSlots slots).SlotsFit := by
  obtain ⟨lengths, distinct, bounded, _⟩ := assignSlotsWithTaken_eq_ok assigned
  have own : (set.recordSlots slots).partitions.filterMap Partition.slot = slots := by
    rw [filterMap_slot, map_slot_recordSlots lengths, List.filterMap_map]
    exact List.filterMap_some
  have kept : (set.recordSlots slots).keptSlots = set.keptSlots := rfl
  have table : (set.recordSlots slots).tableSlots = set.tableSlots := rfl
  have length : (set.recordSlots slots).partitions.length = set.partitions.length :=
    List.length_mapIdx
  refine ⟨?_, ?_, ?_⟩
  · rw [own, kept]
    exact (List.perm_append_comm.nodup_iff).mp distinct
  · rw [own, kept, table]
    intro slot member
    exact bounded slot (List.perm_append_comm.mem_iff.mp member)
  · rw [length, kept, table]
    exact fit.room

end PartitionSet

/-- No call breaks the fit. -/
theorem slotsFit_call (crc32 : List UInt8 → UInt32) {set : PartitionSet} (fit : set.SlotsFit)
    (call : Call) : (call.apply crc32 set).SlotsFit := by
  cases call with
  | edit change => exact PartitionSet.slotsFit_edit fit change
  | commit dev fault =>
      rcases PartitionSet.commitMutOn_cases crc32 fault set dev with same | ⟨plan, planned, same⟩
      · rw [Call.apply, same]
        exact fit
      · rw [Call.apply, same]
        exact PartitionSet.slotsFit_recordSlots fit
          (PartitionSet.assignedSlots_of_tablePlan planned)

theorem slotsFit_run (crc32 : List UInt8 → UInt32) {set : PartitionSet} (fit : set.SlotsFit)
    (calls : List Call) : (Call.applyAll crc32 calls set).SlotsFit := by
  induction calls generalizing set with
  | nil => exact fit
  | cons call calls ih => exact ih (slotsFit_call crc32 fit call)

/-! ## A slot is kept -/

/-- The slot that the partition in place `i` carries. -/
def PartitionSet.slotAt (set : PartitionSet) (i : Nat) : Option UInt32 :=
  set.partitions[i]?.bind Partition.slot

section Kept

variable {set : PartitionSet} {i j : Nat} {slot : UInt32}

theorem slotAt_eq_map (set : PartitionSet) (i : Nat) :
    set.slotAt i = (set.partitions.map Partition.slot)[i]?.join := by
  rw [PartitionSet.slotAt, List.getElem?_map]
  cases set.partitions[i]? <;> rfl

theorem slotAt_eq_some :
    set.slotAt i = some slot ↔ ∃ p, set.partitions[i]? = some p ∧ p.slot = some slot :=
  Option.bind_eq_some_iff

/-- An edit leaves the slot of every partition it does not remove. -/
theorem slotAt_edit (change : Edit) (carried : set.slotAt j = some slot)
    (moved : (Call.edit change).destination set j = some i) :
    (change.apply set).slotAt i = some slot := by
  cases change with
  | add startHint length typeId label drawn =>
      cases moved
      rw [Edit.apply, PartitionSet.exec_add]
      cases set.place startHint length typeId label drawn with
      | error error => exact carried
      | ok part =>
          obtain ⟨p, listed, own⟩ := slotAt_eq_some.mp carried
          refine slotAt_eq_some.mpr ⟨p, ?_, own⟩
          rw [List.getElem?_append_left (List.getElem?_eq_some_iff.mp listed).1]
          exact listed
  | remove named =>
      rw [Edit.apply, PartitionSet.exec_remove]
      rw [Call.destination] at moved
      cases resolved : set.resolve named with
      | error error =>
          rw [resolved] at moved
          cases moved
          exact carried
      | ok index =>
          simp only [resolved] at moved
          split at moved
          · cases moved
          next other =>
            cases moved
            simp only [slotAt_eq_map, PartitionSet.map_slot_refresh] at carried ⊢
            rw [← List.eraseIdx_map, List.getElem?_eraseIdx]
            by_cases before : j < index
            · rw [if_pos before, if_pos before]
              exact carried
            · -- The places behind the removed one move up by one.
              have behind : ¬ j - 1 < index := by omega
              have same : j - 1 + 1 = j := by omega
              rw [if_neg before, if_neg behind, same]
              exact carried
  | resize named newLength =>
      cases moved
      rw [Edit.apply, PartitionSet.exec_resize]
      cases set.resized named newLength with
      | error error => exact carried
      | ok found =>
          simp only [slotAt_eq_map, PartitionSet.map_slot_refresh] at carried ⊢
          rw [PartitionSet.map_slot_modify]
          exact carried

/-- A partition that carries a slot sits in it. -/
theorem seat_of_slotAt {slots : List UInt32} (assigned : set.assignedSlots = .ok slots)
    {p : Partition} (listed : set.partitions[i]? = some p) (own : p.slot = some slot) :
    slots[i]? = some slot ∧ (p, slot) ∈ set.partitions.zip slots := by
  obtain ⟨lengths, _, _, kept⟩ := assignSlotsWithTaken_eq_ok assigned
  obtain ⟨given, here, seat⟩ := mem_zip_of_getElem? lengths listed
  have same : given = slot := kept _ seat slot own
  subst same
  exact ⟨here, seat⟩

/-- Recording the slots of an assignment changes no slot that was there. -/
theorem slotAt_recordSlots {slots : List UInt32} (assigned : set.assignedSlots = .ok slots)
    (carried : set.slotAt i = some slot) : (set.recordSlots slots).slotAt i = some slot := by
  obtain ⟨p, listed, own⟩ := slotAt_eq_some.mp carried
  obtain ⟨lengths, _⟩ := assignSlotsWithTaken_eq_ok assigned
  rw [slotAt_eq_map, PartitionSet.map_slot_recordSlots lengths, List.getElem?_map,
    (seat_of_slotAt assigned listed own).1]
  rfl

variable (crc32 : List UInt8 → UInt32)

theorem slotAt_call (call : Call) (carried : set.slotAt j = some slot)
    (moved : call.destination set j = some i) : (call.apply crc32 set).slotAt i = some slot := by
  cases call with
  | edit change => exact slotAt_edit change carried moved
  | commit dev fault =>
      cases moved
      rcases PartitionSet.commitMutOn_cases crc32 fault set dev with same | ⟨plan, planned, same⟩
      · rw [Call.apply, same]
        exact carried
      · rw [Call.apply, same]
        exact slotAt_recordSlots (PartitionSet.assignedSlots_of_tablePlan planned) carried

/-- A partition that a run does not remove carries at its end the slot it carried. -/
theorem slotAt_run (calls : List Call) (carried : set.slotAt j = some slot)
    (moved : Call.destinationAll crc32 calls set j = some i) :
    (Call.applyAll crc32 calls set).slotAt i = some slot := by
  induction calls generalizing set j with
  | nil =>
      cases moved
      exact carried
  | cons call calls ih =>
      obtain ⟨between, first, rest⟩ := Option.bind_eq_some_iff.mp moved
      exact ih (slotAt_call crc32 call carried first) rest

end Kept

/-! ## Where a run starts -/

section Initial

variable {set : PartitionSet}

/-- The places of a table are distinct slots inside it. -/
theorem places_nodup (count : UInt32) : ((List.range count.toNat).map UInt32.ofNat).Nodup := by
  refine List.Nodup.map_on (fun i first j second same => ?_) List.nodup_range
  rw [← toNat_ofNat_place (List.mem_range.mp first),
    ← toNat_ofNat_place (List.mem_range.mp second), same]

theorem places_bounded (count : UInt32) :
    ∀ slot ∈ (List.range count.toNat).map UInt32.ofNat, slot.toNat < count.toNat := by
  intro slot member
  obtain ⟨i, place, rfl⟩ := List.mem_map.mp member
  rw [toNat_ofNat_place (List.mem_range.mp place)]
  exact List.mem_range.mp place

/-- Distinct slots of a table are no more than it has. -/
theorem length_le_of_slots {slots : List UInt32} {count : Nat} (distinct : slots.Nodup)
    (bounded : ∀ slot ∈ slots, slot.toNat < count) : slots.length ≤ count := by
  have inside : slots.map UInt32.toNat ⊆ List.range count := by
    intro place member
    obtain ⟨slot, present, rfl⟩ := List.mem_map.mp member
    exact List.mem_range.mpr (bounded slot present)
  have places : (slots.map UInt32.toNat).Nodup :=
    distinct.map fun a b same => UInt32.toNat_inj.mp same
  simpa using (List.subperm_of_subset places inside).length_le

/-- When everybody carries a slot, distinct slots inside the table are all it takes. -/
theorem slotsFit_of_seated
    (distinct : (set.keptSlots ++ set.partitions.filterMap Partition.slot).Nodup)
    (bounded : ∀ slot ∈ set.keptSlots ++ set.partitions.filterMap Partition.slot,
      slot.toNat < set.tableSlots.toNat)
    (seated : ∀ p ∈ set.partitions, ∃ slot, p.slot = some slot) : set.SlotsFit := by
  have few := length_le_of_slots distinct bounded
  have all : (set.partitions.filterMap Partition.slot).length = set.partitions.length := by
    rw [List.length_filterMap_eq_countP, List.countP_eq_length]
    intro p member
    obtain ⟨slot, carried⟩ := seated p member
    simp [carried]
  rw [List.length_append] at few
  exact ⟨distinct, bounded, by omega⟩

/-- The slots a GPT was read from are distinct places of its array. -/
theorem slotsFit_readGpt {crc32 : List UInt8 → UInt32} {dev : BlockRead}
    {lba0 lba1 array : List UInt8} {header : Header}
    (read : set.ReadGpt crc32 dev lba0 lba1 header array) : set.SlotsFit := by
  have table : set.tableSlots = header.numPartitionEntries := by
    rw [PartitionSet.tableSlots, read.tableKind, read.geometry]
    rfl
  have kept : set.keptSlots = [] := by
    rw [PartitionSet.keptSlots, read.tableKind]
  have own := read.slots_sublist
  refine slotsFit_of_seated ?_ ?_ ?_
  · rw [kept, List.nil_append]
    exact (places_nodup _).sublist own
  · rw [kept, List.nil_append, table]
    exact fun slot member => places_bounded _ slot (own.subset member)
  · intro p member
    obtain ⟨i, _, slot⟩ := read.seated member
    exact ⟨_, slot⟩

/-- The slots an MBR was read from are distinct, and its reserved entries have others. -/
theorem slotsFit_readMbr {dev : BlockRead} {lba0 : List UInt8} (read : set.ReadMbr dev lba0) :
    set.SlotsFit := by
  have table : set.tableSlots = UInt32.ofNat MbrLayout.entryCount := by
    rw [PartitionSet.tableSlots, read.tableKind]
  have kept : set.keptSlots = (reservedEntries lba0).map ReservedEntry.slot := by
    rw [PartitionSet.keptSlots, read.tableKind, read.reserved]
  have places : (List.range MbrLayout.entryCount).map UInt32.ofNat =
      (List.range (UInt32.ofNat MbrLayout.entryCount).toNat).map UInt32.ofNat := rfl
  have own : (set.partitions.filterMap Partition.slot).Sublist
      ((List.range MbrLayout.entryCount).map UInt32.ofNat) := by
    rw [read.partitions]
    refine (List.Sublist.filterMap _ List.filter_sublist).trans (slots_sublist ?_ _)
    intro i p parsed
    exact slot_of_parseMbrEntry parsed
  have reserved : set.keptSlots.Sublist ((List.range MbrLayout.entryCount).map UInt32.ofNat) := by
    rw [kept, ← List.filterMap_eq_map]
    refine slots_sublist (fun i r parsed => ?_) _
    simp only [reservedEntryAt] at parsed
    split at parsed
    · cases parsed
    · split at parsed
      · cases parsed
      · cases parsed
        rfl
  have volumes : ∀ p ∈ set.partitions, ∃ i < MbrLayout.entryCount, HoldsVolume lba0 i ∧
      p.slot = some (UInt32.ofNat i) := by
    intro p member
    rw [read.partitions] at member
    obtain ⟨i, bounded, holds, rfl⟩ := mem_parseMbr.mp member
    exact ⟨i, bounded, holds, rfl⟩
  refine slotsFit_of_seated ?_ ?_ ?_
  · rw [List.nodup_append]
    refine ⟨(places_nodup _).sublist (places ▸ reserved), (places_nodup _).sublist (places ▸ own), ?_⟩
    rintro slot first _ second rfl
    rw [kept] at first
    obtain ⟨r, present, same⟩ := List.mem_map.mp first
    obtain ⟨i, bounded, _, noVolume, rfl⟩ := mem_reservedEntries_iff.mp present
    obtain ⟨p, listed, carried⟩ := List.mem_filterMap.mp second
    obtain ⟨j, inTable, holds, slot⟩ := volumes p listed
    rw [slot] at carried
    have equal := congrArg UInt32.toNat (same.trans (Option.some.inj carried).symm)
    rw [toNat_slot bounded, toNat_slot inTable] at equal
    exact noVolume (equal ▸ holds)
  · rw [table]
    intro slot member
    refine places_bounded _ slot ?_
    rcases List.mem_append.mp member with first | second
    · exact reserved.subset first
    · exact own.subset second
  · intro p member
    obtain ⟨i, _, _, slot⟩ := volumes p member
    exact ⟨_, slot⟩

theorem slotsFit_initial {crc32 : List UInt8 → UInt32} (initial : set.Initial crc32) :
    set.SlotsFit := by
  cases initial with
  | emptyGpt diskSize drawn =>
      exact slotsFit_of_seated List.nodup_nil
        (by simp [PartitionSet.keptSlots, PartitionSet.emptyGpt])
        (by simp [PartitionSet.emptyGpt])
  | emptyMbr diskSize =>
      exact slotsFit_of_seated List.nodup_nil
        (by simp [PartitionSet.keptSlots, PartitionSet.emptyMbr])
        (by simp [PartitionSet.emptyMbr])
  | probed dev set read =>
      rcases fromProbe_cases read with ⟨_, _, _, _, gpt⟩ | ⟨_, mbr⟩
      · exact slotsFit_readGpt gpt
      · exact slotsFit_readMbr mbr

/-- The entries kept off LBA 0 are in its slots. -/
theorem reserved_bounded_initial {crc32 : List UInt8 → UInt32} (initial : set.Initial crc32) :
    ∀ r ∈ set.reserved, r.slot.toNat < MbrLayout.entryCount := by
  cases initial with
  | emptyGpt diskSize drawn => simp [PartitionSet.emptyGpt]
  | emptyMbr diskSize => simp [PartitionSet.emptyMbr]
  | probed dev set read =>
      intro r member
      rcases fromProbe_cases read with ⟨lba0, _, _, _, gpt⟩ | ⟨lba0, mbr⟩
      · rw [gpt.reserved] at member
        unfold lba0Entries at member
        split at member
        · cases member
        · obtain ⟨i, place, entry⟩ := List.mem_filterMap.mp member
          split at entry
          · cases entry
          · cases entry
            change (UInt32.ofNat i).toNat < _
            rw [toNat_slot (List.mem_range.mp place)]
            exact List.mem_range.mp place
      · rw [mbr.reserved] at member
        obtain ⟨i, bounded, _, _, rfl⟩ := mem_reservedEntries_iff.mp member
        change (UInt32.ofNat i).toNat < _
        rw [toNat_slot bounded]
        exact bounded

end Initial

/-- No call touches the shape of the table or the entries kept off LBA 0. -/
theorem sameTable_call (crc32 : List UInt8 → UInt32) (set : PartitionSet) (call : Call) :
    Edit.SameTable set (call.apply crc32 set) := by
  cases call with
  | edit change => exact Edit.sameTable_apply set change
  | commit dev fault =>
      rcases PartitionSet.commitMutOn_cases crc32 fault set dev with same | ⟨plan, planned, same⟩
      · rw [Call.apply, same]
        exact ⟨rfl, rfl, rfl, rfl⟩
      · rw [Call.apply, same]
        exact ⟨rfl, rfl, rfl, rfl⟩

theorem sameTable_run (crc32 : List UInt8 → UInt32) (set : PartitionSet) (calls : List Call) :
    Edit.SameTable set (Call.applyAll crc32 calls set) := by
  induction calls generalizing set with
  | nil => exact ⟨rfl, rfl, rfl, rfl⟩
  | cons call calls ih => exact (sameTable_call crc32 set call).trans (ih _)

/-! ## No commit is refused for its slots -/

/-- What a commit answers when the slots of its partitions, or of the entries it keeps,
do not fit the table. -/
def slotRefusals : List String :=
  ["more partitions than the table has entry slots",
    "MBR supports at most 4 primary partitions",
    "two entries claim the same table slot",
    "no free slot left in the table",
    "partition slot past the end of the table",
    "reserved entry slot past the end of the table"]

/-- The error says that slots do not fit. -/
def Error.AboutSlots : Error → Prop
  | .invalid reason => reason ∈ slotRefusals
  | _ => False

instance (error : Error) : Decidable error.AboutSlots :=
  match error with
  | .invalid reason => inferInstanceAs (Decidable (reason ∈ slotRefusals))
  | .block _ | .noPartitionTable | .gptHeaderCrc | .gptEntriesCrc | .gptCorrupt _
  | .deviceTooSmall | .unsupportedSectorSize _ => inferInstanceAs (Decidable False)

section Refusals

theorem never_sectorSpan (p : Partition) : Never Error.AboutSlots p.sectorSpan := by
  unfold Partition.sectorSpan
  split
  · exact never_error (by decide)
  · split
    · exact never_error (by decide)
    · exact never_ok _

theorem never_checkShape (g : GptGeometry) : Never Error.AboutSlots g.checkShape := by
  unfold GptGeometry.checkShape
  iterate 8 refine (never_refuseIf (by decide)).bind fun _ _ => ?_
  exact never_refuseIf (by decide)

theorem never_usableRange (g : GptGeometry) (total : UInt64) :
    Never Error.AboutSlots (g.usableRange total) := by
  unfold GptGeometry.usableRange
  refine (never_checkShape g).bind fun _ _ => ?_
  refine (never_refuseIf (by decide)).bind fun _ _ => ?_
  split
  · exact never_ok _
  · iterate 3 refine (never_refuseIf (by decide)).bind fun _ _ => ?_
    exact never_ok _

theorem never_validatedSpan (first last : UInt64) (p : Partition) :
    Never Error.AboutSlots (validatedSpan first last p) := by
  unfold validatedSpan validatePartition
  refine Never.bind ?_ fun _ _ => never_sectorSpan p
  iterate 3 refine (never_refuseIf (by decide)).bind fun _ _ => ?_
  refine (never_sectorSpan p).bind fun _ _ => ?_
  iterate 2 refine (never_refuseIf (by decide)).bind fun _ _ => ?_
  exact never_refuseIf (by decide)

theorem never_validatedMbrSpan (total : UInt64) (p : Partition) :
    Never Error.AboutSlots (validatedMbrSpan total p) := by
  unfold validatedMbrSpan validateMbrPartition
  refine Never.bind ?_ fun _ _ => never_sectorSpan p
  iterate 3 refine (never_refuseIf (by decide)).bind fun _ _ => ?_
  refine (never_sectorSpan p).bind fun _ _ => ?_
  iterate 2 refine (never_refuseIf (by decide)).bind fun _ _ => ?_
  refine (never_orRefuse (by decide)).bind fun _ _ => ?_
  exact never_refuseIf (by decide)

theorem never_writeEntry (g : GptGeometry) (tails : EntryTails) (array : List UInt8)
    (seat : Partition × UInt32) : Never Error.AboutSlots (writeEntry g tails array seat) := by
  unfold writeEntry Partition.entryRecord
  refine Never.bind ?_ fun _ _ => never_ok _
  iterate 2 refine (never_orRefuse (by decide)).bind fun _ _ => ?_
  exact (never_sectorSpan _).bind fun _ _ => never_ok _

theorem never_writeMbrEntry (existing sector : List UInt8) (seat : Partition × UInt32) :
    Never Error.AboutSlots (writeMbrEntry existing sector seat) := by
  unfold writeMbrEntry
  exact (never_orRefuse (by decide)).bind fun _ _ => never_ok _

theorem never_readAt (dev : ByteDevice) (offset len : Nat) :
    Never Error.AboutSlots ((dev.readAt offset len).mapError Error.block) := by
  cases dev.readAt offset len with
  | error error => exact never_error not_false
  | ok bytes => exact never_ok bytes

theorem never_hybridLba0 {lba0 : List ReservedEntry}
    (bounded : ∀ r ∈ lba0, r.slot.toNat < MbrLayout.entryCount) (current : List UInt8)
    (protective : Bytes16) (partitions : List Partition) :
    Never Error.AboutSlots (hybridLba0 current lba0 protective partitions) := by
  have inside : ¬ lba0.any (fun entry => MbrLayout.entryCount ≤ entry.slot.toNat) = true := by
    simpa using bounded
  unfold hybridLba0
  refine (never_of_not inside _).bind fun _ _ => ?_
  refine Never.bind ?_ fun _ _ => never_ok _
  unfold placeProtective
  split
  · exact never_ok _
  · exact (never_orRefuse (by decide)).bind fun _ _ => never_ok _

theorem never_plannedLba0 {lba0 : List ReservedEntry}
    (bounded : ∀ r ∈ lba0, r.slot.toNat < MbrLayout.entryCount) (dev : ByteDevice)
    (partitions : List Partition) :
    Never Error.AboutSlots (plannedLba0 dev partitions lba0) := by
  simp only [plannedLba0]
  split
  · exact never_ok _
  · exact (never_readAt dev 0 512).bind fun current _ => never_hybridLba0 bounded current _ _

variable {set : PartitionSet} (fit : set.SlotsFit)
  (bounded : ∀ r ∈ set.reserved, r.slot.toNat < MbrLayout.entryCount)

include fit

theorem never_assignedSlots : Never Error.AboutSlots set.assignedSlots := by
  obtain ⟨slots, assigned⟩ := fit.exists_assigned
  rw [assigned]
  exact never_ok slots

include bounded

theorem never_tablePlan (crc32 : List UInt8 → UInt32) (dev : ByteDevice) :
    Never Error.AboutSlots (set.tablePlan crc32 dev) := by
  have seats := never_assignedSlots fit
  have room := fit.room
  unfold PartitionSet.tablePlan
  unfold PartitionSet.assignedSlots PartitionSet.tableSlots PartitionSet.keptSlots at seats
  unfold PartitionSet.tableSlots PartitionSet.keptSlots at room
  cases kind : set.tableKind with
  | gpt =>
      rw [kind] at seats room
      have few : ¬ set.gptGeometry.numEntries.toNat < set.partitions.length := by
        simp only [List.length_nil] at room
        omega
      refine Never.bind ?_ fun _ _ => never_ok _
      unfold gptPlan
      refine (never_refuseIf not_false).bind fun _ _ => ?_
      refine (never_usableRange _ _).bind fun _ _ => ?_
      refine (never_of_not few _).bind fun _ _ => ?_
      refine (Never.mapM (never_validatedSpan _ _) _).bind fun _ _ => ?_
      refine (never_refuseIf (by decide)).bind fun _ _ => ?_
      refine seats.bind fun _ _ => ?_
      refine (Never.foldlM (never_writeEntry _ _) _ _).bind fun _ _ => ?_
      exact (never_plannedLba0 bounded dev _).bind fun _ _ => never_ok _
  | mbr =>
      rw [kind] at seats room
      have few : ¬ MbrLayout.entryCount < set.partitions.length + set.reserved.length := by
        rw [List.length_map] at room
        exact Nat.not_lt.mpr room
      refine Never.bind ?_ fun _ _ => never_ok _
      unfold mbrPlan
      refine (never_refuseIf not_false).bind fun _ _ => ?_
      refine (never_of_not few _).bind fun _ _ => ?_
      refine (never_refuseIf (by decide)).bind fun _ _ => ?_
      refine (Never.mapM (never_validatedMbrSpan _) _).bind fun _ _ => ?_
      refine (never_refuseIf (by decide)).bind fun _ _ => ?_
      refine seats.bind fun _ _ => ?_
      refine (never_readAt dev 0 512).bind fun _ _ => ?_
      refine Never.bind ?_ fun _ _ => never_ok _
      exact (Never.foldlM (never_writeMbrEntry _) _ _).bind fun _ _ => never_ok _

omit fit bounded in
theorem never_writeAll (writes : List (Write UInt8)) (dev : ByteDevice) :
    Never Error.AboutSlots ((DeviceM.writeAll writes).exec dev).1 := by
  induction writes generalizing dev with
  | nil => exact never_ok ()
  | cons write writes ih =>
      refine Fallible.never_exec_bind ?_ fun _ middle => ih middle
      by_cases inside : Write.Inside ⟨write.offset, write.data⟩ dev.bytes.length
      · rw [DeviceM.exec_writeAt_of_inside inside]
        exact never_ok ()
      · have outside : ((DeviceM.writeAt write.offset write.data).exec dev).1 = .error (.block
            (.outOfBounds write.offset write.data.length dev.bytes.length)) :=
          congrArg Prod.fst (dif_neg inside)
        rw [outside]
        exact never_error not_false

omit fit bounded in
theorem never_flush (dev : ByteDevice) :
    Never Error.AboutSlots (DeviceM.flush.exec dev).1 := by
  rw [DeviceM.exec_flush]
  cases dev.flushed with
  | error error => exact never_error not_false
  | ok done => exact never_ok done

theorem never_writeAndFlush (crc32 : List UInt8 → UInt32) (dev : ByteDevice) :
    Never Error.AboutSlots ((set.writeAndFlush crc32).exec dev).1 := by
  unfold PartitionSet.writeAndFlush
  refine Fallible.never_exec_bind ?_ fun _ middle =>
    Fallible.never_exec_bind (never_flush middle) fun _ _ => never_ok _
  have planned := PartitionSet.planned_writeTable crc32 set dev
  have plan := never_tablePlan fit bounded crc32 dev
  cases made : set.tablePlan crc32 dev with
  | error error =>
      rw [planned.refused made]
      exact never_error (plan error made)
  | ok plan =>
      rw [planned.accepted made]
      exact Fallible.never_exec_bind (never_writeAll _ dev) fun _ _ => never_ok _

/-- A commit may be refused, or fail on the way, but not for its slots. -/
theorem never_commitMutOn (crc32 : List UInt8 → UInt32) (dev : ByteDevice)
    (fault : Option (Nat × BlockError)) :
    Never Error.AboutSlots ((PartitionSet.commitMutOn crc32 fault).exec (set, dev)).1 := by
  cases fault with
  | none =>
      unfold PartitionSet.commitMutOn PartitionSet.commitMut
      rw [Fallible.exec_current_bind]
      refine Fallible.never_exec_bind ?_ fun _ _ => never_ok _
      rw [Fallible.exec_onSecond]
      exact never_writeAndFlush fit bounded crc32 dev
  | some broken =>
      simp only [PartitionSet.commitMutOn]
      rw [Fallible.exec_current_bind]
      refine Fallible.never_exec_bind (never_tablePlan fit bounded crc32 dev) fun plan _ => ?_
      refine Fallible.never_exec_bind ?_ fun _ _ => never_error not_false
      rw [Fallible.exec_onSecond]
      exact never_writeAll _ _

end Refusals

/-! ## What the tables hold -/

/-- Where a commit to the device puts the table: a GPT's entry array goes to both copies. -/
def PartitionSet.tableOffsets (set : PartitionSet) (dev : ByteDevice) : List Nat :=
  match set.tableKind with
  | .gpt => [(set.gptGeometry.entryLba * sectorSize).toNat,
      ((dev.sizeBytes / sectorSize - 1 - set.gptGeometry.arraySectors) * sectorSize).toNat]
  | .mbr => [0]

/-- The table has the partition in the given slot. -/
def PartitionSet.StoresAt (set : PartitionSet) (dev : ByteDevice) (table : List UInt8)
    (p : Partition) (slot : UInt32) : Prop :=
  match set.tableKind with
  | .gpt => parseEntry set.gptGeometry.entrySize.toNat dev.sizeBytes table slot.toNat =
      .ok (some (stored p slot, p.span))
  | .mbr => ∃ typeByte active, p.kind = .mbr typeByte active ∧
      byteAt (sectorEntry table slot.toNat) 0 = (if active then statusActive else 0x00) ∧
      byteAt (sectorEntry table slot.toNat) MbrLayout.typeByte = typeByte ∧
      u32At (sectorEntry table slot.toNat) MbrLayout.startLba =
        (p.start / sectorSize).toUInt32 ∧
      u32At (sectorEntry table slot.toNat) MbrLayout.sectorCount =
        (p.length / sectorSize).toUInt32

section Tables

variable {crc32 : List UInt8 → UInt32} {set : PartitionSet} {dev : ByteDevice}
  {plan : TablePlan}

theorem table_written (planned : set.tablePlan crc32 dev = .ok plan) :
    ∀ offset ∈ set.tableOffsets dev, ⟨offset, plan.table⟩ ∈ plan.writes := by
  unfold PartitionSet.tablePlan at planned
  unfold PartitionSet.tableOffsets
  cases kind : set.tableKind with
  | gpt =>
      rw [kind] at planned
      obtain ⟨inner, _, done⟩ := bind_eq_ok.mp planned
      cases done
      simp [GptPlan.writes]
  | mbr =>
      rw [kind] at planned
      obtain ⟨inner, _, done⟩ := bind_eq_ok.mp planned
      cases done
      simp

/-- Every table a commit writes has a partition that carries a slot in that slot. -/
theorem storesAt_of_tablePlan (planned : set.tablePlan crc32 dev = .ok plan) {i : Nat}
    {p : Partition} {slot : UInt32} (listed : set.partitions[i]? = some p)
    (own : p.slot = some slot) : set.StoresAt dev plan.table p slot := by
  have assigned := PartitionSet.assignedSlots_of_tablePlan planned
  have seat := (seat_of_slotAt assigned listed own).2
  unfold PartitionSet.tablePlan at planned
  unfold PartitionSet.StoresAt
  cases kind : set.tableKind with
  | gpt =>
      rw [kind] at planned
      obtain ⟨inner, made, done⟩ := bind_eq_ok.mp planned
      cases done
      have accepted := gptPlan_eq_ok made
      have total := totalSectors_lt dev
      have last := accepted.usableOn.last_lt
      have found := itemAt_of_mem accepted.seating.distinct seat
      have bound := accepted.seating.bounded (p, slot) seat
      have onDevice : (inner.usable.2.toNat + 1) * 512 ≤ dev.sizeBytes.toNat := by
        rw [ByteDevice.toNat_sizeBytes]
        omega
      have read := parseEntry_seatedArray accepted.seating set.gptEntryTails (by omega) onDevice
        bound
      simp only
      rw [accepted.array_eq]
      rw [found] at read
      exact read
  | mbr =>
      rw [kind] at planned
      obtain ⟨inner, made, done⟩ := bind_eq_ok.mp planned
      cases done
      have accepted := mbrPlan_eq_ok made
      have found := itemAt_of_mem accepted.seating.distinct seat
      have bound := accepted.seating.bounded (p, slot) seat
      obtain ⟨typeByte, active, fields⟩ := accepted.seating.kinds (p, slot) seat
      have held : sectorEntry inner.sector slot.toNat =
          mbrImage (slice dev.bytes 0 512) (p, slot) := by
        rw [accepted.sector_eq]
        refine (sectorEntry_mbrSector (length_boot accepted) (length_tableBlock _ _ _) bound).trans ?_
        rw [tableBlock, found]
        rfl
      simp only
      rw [held]
      exact ⟨typeByte, active, fields, mbrImage_fields _ fields⟩

end Tables

/-! ## Runs -/

/-- What a run promises from a set on: its slots fit, no commit is refused for them, and
a partition that carries a slot and is not removed has it in the set the run leaves and
in every table a commit then writes, be it to a device that fails half-way. -/
structure KeepsSlots (crc32 : List UInt8 → UInt32) (calls : List Call) (set last : PartitionSet) :
    Prop where
  fit : last.SlotsFit
  accepted : ∀ dev fault error state,
    (PartitionSet.commitMutOn crc32 fault).exec (last, dev) = (.error error, state) →
    ¬ error.AboutSlots
  kept : ∀ j i slot, set.slotAt j = some slot →
    Call.destinationAll crc32 calls set j = some i → last.slotAt i = some slot
  placed : ∀ j i slot p dev plan, set.slotAt j = some slot →
    Call.destinationAll crc32 calls set j = some i → last.partitions[i]? = some p →
    last.tablePlan crc32 dev = .ok plan →
    last.StoresAt dev plan.table p slot ∧
      ∀ offset ∈ last.tableOffsets dev, ⟨offset, plan.table⟩ ∈ plan.writes

/-- A removal, a commit that fails at its first write and one that succeeds. -/
def hybridRun : List Call :=
  [.edit (.remove (.index 0)), .commit hybridDisk (some (0, .custom "write failed")),
    .commit hybridDisk none]

end DiskPartitions
