import DiskPartitions.CommittedSets
import DiskPartitions.SoundEdits

/-!
# An entry's tail follows its partition

Entries larger than the standard 128 bytes end in bytes nobody here can interpret.
They are kept under the UUID of the partition, so an edited set writes each of them
behind the entry of the partition it came with, in whatever slot that is, and zeros
behind the entries of the partitions it added.
-/

namespace DiskPartitions

open Slices LittleEndian CheckedWords Refusals WriteJournal KeyOrder FallibleState

/-! ## Where a partition came from -/

namespace Edit

/-- Where the partition in place `i` after the calls was before them; nowhere, when one
of them added it. -/
def originAll : List Edit → PartitionSet → Nat → Option Nat
  | [], _, i => some i
  | edit :: edits, set, i => (originAll edits (edit.apply set) i).bind (edit.origin set)

/-- The UUID the call mints, if it adds a partition. -/
def minted : Edit → Option Guid
  | add _ _ _ _ drawn => some (randomUuid drawn)
  | _ => none

/-- A call that does not mint the UUID of a partition of the set. -/
def Fresh (set : PartitionSet) (edit : Edit) : Prop :=
  ∀ uuid ∈ edit.minted, ∀ p ∈ set.partitions, p.uuid ≠ some uuid

theorem kept_refresh (set : PartitionSet) :
    set.refreshOverlapIssues.gptEntryTails = set.gptEntryTails ∧
      set.refreshOverlapIssues.diskGuid = set.diskGuid := by
  unfold PartitionSet.refreshOverlapIssues
  split <;> exact ⟨rfl, rfl⟩

/-- The edits keep what the set remembers of the entries and of the disk. -/
theorem kept_apply (set : PartitionSet) (edit : Edit) :
    (edit.apply set).gptEntryTails = set.gptEntryTails ∧
      (edit.apply set).diskGuid = set.diskGuid := by
  rcases apply_cases set edit with same | ⟨_, _, _, _, _, part, _, _, same⟩ | ⟨index, same⟩ |
    ⟨_, _, index, sectors, _, same⟩
  · rw [same]
    exact ⟨rfl, rfl⟩
  · rw [same]
    exact ⟨rfl, rfl⟩
  · rw [same]
    exact kept_refresh _
  · rw [same]
    exact kept_refresh _

theorem kept_applyAll (set : PartitionSet) (edits : List Edit) :
    (applyAll edits set).gptEntryTails = set.gptEntryTails ∧
      (applyAll edits set).diskGuid = set.diskGuid :=
  applyAll_induction
    (P := fun other => other.gptEntryTails = set.gptEntryTails ∧ other.diskGuid = set.diskGuid)
    (fun edit _ other same => ⟨(kept_apply other edit).1.trans same.1,
      (kept_apply other edit).2.trans same.2⟩) ⟨rfl, rfl⟩

end Edit

section Origins

variable {set : PartitionSet} {i : Nat} {p : Partition}

/-- A partition placed in a GPT has the UUID minted for it. -/
theorem uuid_of_place {startHint : Option UInt64} {length : UInt64} {typeId : PartitionTypeId}
    {label : Option String} {drawn : Bytes16} (gpt : set.tableKind = .gpt)
    (placed : set.place startHint length typeId label drawn = .ok p) :
    p.uuid = some (randomUuid drawn) :=
  (PartitionSet.origin_of_place placed).2 gpt

theorem getElem?_uuid_refresh (set : PartitionSet) (i : Nat) :
    set.refreshOverlapIssues.partitions[i]?.map Partition.uuid =
      set.partitions[i]?.map Partition.uuid := by
  rw [← List.getElem?_map, ← List.getElem?_map, PartitionSet.map_refresh fun _ _ => rfl]

/-- A partition found after a call was there before it, under the same UUID, or has the
UUID the call minted. -/
theorem origin_of_apply (gpt : set.tableKind = .gpt) (edit : Edit)
    (listed : (edit.apply set).partitions[i]? = some p) :
    (∃ j q, edit.origin set i = some j ∧ set.partitions[j]? = some q ∧ q.uuid = p.uuid) ∨
      edit.origin set i = none ∧ edit.minted = p.uuid ∧ edit.minted.isSome := by
  cases edit with
  | add startHint length typeId label drawn =>
      rw [Edit.apply, PartitionSet.exec_add] at listed
      simp only [Edit.origin]
      cases placed : set.place startHint length typeId label drawn with
      | error error =>
          rw [placed] at listed
          rw [if_pos (List.getElem?_eq_some_iff.mp listed).1]
          exact .inl ⟨i, p, rfl, listed, rfl⟩
      | ok part =>
          rw [placed] at listed
          simp only [List.getElem?_append] at listed
          split at listed
          next old =>
            rw [if_pos old]
            exact .inl ⟨i, p, rfl, listed, rfl⟩
          next new =>
            rw [if_neg new]
            have only := List.mem_of_getElem? listed
            rw [List.mem_singleton.mp only]
            exact .inr ⟨rfl, (uuid_of_place gpt placed).symm, rfl⟩
  | remove named =>
      refine .inl ?_
      rw [Edit.apply, PartitionSet.exec_remove] at listed
      simp only [Edit.origin]
      cases resolved : set.resolve named with
      | error error =>
          rw [resolved] at listed
          exact ⟨i, p, rfl, listed, rfl⟩
      | ok index =>
          rw [resolved] at listed
          have uuids := getElem?_uuid_refresh
            { set with partitions := set.partitions.eraseIdx index } i
          rw [listed, List.getElem?_eraseIdx] at uuids
          obtain ⟨q, found, same⟩ := Option.map_eq_some_iff.mp uuids.symm
          refine ⟨_, q, rfl, ?_, same⟩
          by_cases before : i < index
          · rw [if_pos before] at found ⊢
            exact found
          · rw [if_neg before] at found ⊢
            exact found
  | resize named newLength =>
      refine .inl ?_
      rw [Edit.apply, PartitionSet.exec_resize] at listed
      simp only [Edit.origin]
      cases resized : set.resized named newLength with
      | error error =>
          rw [resized] at listed
          exact ⟨i, p, rfl, listed, rfl⟩
      | ok found =>
          rw [resized] at listed
          have uuids := getElem?_uuid_refresh { set with
            partitions := set.partitions.modify found.1 (PartitionSet.setLength found.2) } i
          rw [listed, List.getElem?_modify] at uuids
          obtain ⟨q, present, same⟩ := Option.map_eq_some_iff.mp uuids.symm
          obtain ⟨old, there, changed⟩ := Option.map_eq_some_iff.mp present
          refine ⟨i, old, rfl, there, ?_⟩
          rw [← same, ← changed]
          split <;> rfl

/-- The same for a run of calls. -/
theorem origin_of_applyAll (gpt : set.tableKind = .gpt) (edits : List Edit)
    (listed : (Edit.applyAll edits set).partitions[i]? = some p) :
    (∃ j q, Edit.originAll edits set i = some j ∧ set.partitions[j]? = some q ∧
        q.uuid = p.uuid) ∨
      Edit.originAll edits set i = none ∧ ∃ edit ∈ edits, edit.minted = p.uuid ∧
        edit.minted.isSome := by
  induction edits generalizing set with
  | nil => exact .inl ⟨i, p, rfl, listed, rfl⟩
  | cons edit edits ih =>
      have later := (Edit.sameTable_apply set edit).tableKind.trans gpt
      rcases ih later listed with ⟨j, q, came, present, same⟩ | ⟨added, other, member, minted⟩
      · simp only [Edit.originAll, came, Option.bind_some]
        rcases origin_of_apply gpt edit present with ⟨k, old, first, there, uuid⟩ |
          ⟨first, minted, some⟩
        · exact .inl ⟨k, old, first, there, uuid.trans same⟩
        · exact .inr ⟨first, edit, by simp, minted.trans same, some⟩
      · simp only [Edit.originAll, added, Option.bind_none]
        exact .inr ⟨trivial, other, by simp [member], minted⟩

end Origins

/-! ## The arrays on a device -/

/-- The primary entry array of a table of shape `g`. -/
def GptGeometry.primaryArray (g : GptGeometry) (dev : ByteDevice) : List UInt8 :=
  slice dev.bytes (g.entryLba.toNat * 512) g.arrayBytes.toNat

/-- The backup entry array, in front of the backup header. -/
def GptGeometry.backupArray (g : GptGeometry) (dev : ByteDevice) : List UInt8 :=
  slice dev.bytes ((dev.bytes.length / 512 - 1 - g.arraySectors.toNat) * 512) g.arrayBytes.toNat

/-- An array that was parsed is on the device, where its header says. -/
theorem array_of_parseEntryArray {crc32 : List UInt8 → UInt32} {dev : ByteDevice}
    {header : Header} {parts : List Partition} {array : List UInt8}
    (parsed : parseEntryArray crc32 dev header = .ok (parts, array)) :
    array = (GptGeometry.fromHeader header).primaryArray dev ∧
      array.length = header.numPartitionEntries.toNat * header.partitionEntrySize.toNat := by
  have read := array_read_of_parseEntryArray parsed
  have width : (GptGeometry.fromHeader header).arrayBytes.toNat =
      header.numPartitionEntries.toNat * header.partitionEntrySize.toNat :=
    GptGeometry.toNat_arrayBytes _
  change dev.readAt _ _ = _ at read
  unfold ByteDevice.readAt at read
  split at read
  next inside =>
    cases read
    refine ⟨?_, length_slice inside⟩
    rw [GptGeometry.primaryArray, width]
    rfl
  next outside => cases read

/-- What the reader found in the array it parsed: the tails of its entries by UUID. -/
theorem tails_of_readGpt {crc32 : List UInt8 → UInt32} {set : PartitionSet} {dev : ByteDevice}
    {lba0 lba1 array : List UInt8} {header : Header}
    (read : set.ReadGpt crc32 dev lba0 lba1 header array)
    (large : 128 < set.gptGeometry.entrySize.toNat) :
    (∀ p ∈ set.partitions, ∀ uuid slot, p.uuid = some uuid → p.slot = some slot →
      set.gptEntryTails uuid = some (tailAt set.gptGeometry.entrySize.toNat array slot.toNat)) ∧
      ∀ uuid, (∀ p ∈ set.partitions, p.uuid ≠ some uuid) → set.gptEntryTails uuid = none := by
  have collected := read.tails
  rw [read.geometry] at large ⊢
  change entryStandardBytes < header.partitionEntrySize.toNat at large
  unfold entryTails at collected
  rw [if_neg (Nat.not_le.mpr large), read.entries] at collected
  obtain ⟨_, listed, absent⟩ := collectTails_eq_ok collected
  exact ⟨listed, fun uuid others => absent uuid rfl others⟩

/-! ## Tails after a commit -/

theorem paddedTail_of_none {g : GptGeometry} {tails : EntryTails} {uuid : Guid}
    (absent : tails uuid = none) :
    paddedTail g tails uuid = List.replicate (g.entrySize.toNat - 128) 0 := by
  have empty : fittingTail g tails uuid = [] := by
    rw [fittingTail, absent]
    exact List.take_nil
  rw [paddedTail, empty, List.nil_append, List.length_nil, Nat.sub_zero]

theorem paddedTail_of_full {g : GptGeometry} {tails : EntryTails} {uuid : Guid}
    {tail : List UInt8} (present : tails uuid = some tail)
    (full : tail.length = g.entrySize.toNat - 128) : paddedTail g tails uuid = tail := by
  have whole : fittingTail g tails uuid = tail := by
    rw [fittingTail, present]
    exact List.take_of_length_le (Nat.le_of_eq full)
  rw [paddedTail, whole, full, Nat.sub_self, List.replicate_zero, List.append_nil]

theorem length_tailAt {size count i : Nat} {array : List UInt8} (large : 128 < size)
    (width : array.length = count * size) (present : i < count) :
    (tailAt size array i).length = size - 128 := by
  have next : (i + 1) * size ≤ count * size := Nat.mul_le_mul_right size present
  rw [Nat.succ_mul] at next
  refine length_slice ?_
  unfold entryStandardBytes
  omega

/-- The entry of partition `p` in slot `slot` of an array, with the bytes past the
standard ones. -/
structure HasEntry (size : Nat) (deviceSize : UInt64) (array : List UInt8) (p : Partition)
    (slot : UInt32) (tail : List UInt8) : Prop where
  entry : parseEntry size deviceSize array slot.toNat = .ok (some (stored p slot, p.span))
  tail : tailAt size array slot.toNat = tail

/-- What the plan's array has for each seat. -/
theorem hasEntry_of_seat {dev : ByteDevice} {partitions : List Partition} {g : GptGeometry}
    {tails : EntryTails} {plan : GptPlan} (accepted : plan.Accepted dev partitions g tails)
    {p : Partition} {slot : UInt32} (seat : (p, slot) ∈ partitions.zip plan.slots) {uuid : Guid}
    (named : p.uuid = some uuid) :
    HasEntry g.entrySize.toNat dev.sizeBytes plan.array p slot (paddedTail g tails uuid) := by
  have total := totalSectors_lt dev
  have last := accepted.usableOn.last_lt
  have onDevice : (plan.usable.2.toNat + 1) * 512 ≤ dev.sizeBytes.toNat := by
    rw [ByteDevice.toNat_sizeBytes]
    omega
  have read := parseEntry_seatedArray accepted.seating tails (by omega) onDevice
    (accepted.seating.bounded (p, slot) seat)
  rw [itemAt_of_mem accepted.seating.distinct seat] at read
  refine ⟨?_, ?_⟩
  · rw [accepted.array_eq]
    exact read
  · rw [accepted.array_eq]
    exact tailAt_seatedArray accepted.seating seat named

/-- What both arrays of a table hold for a partition in a slot. -/
def HasEntries (g : GptGeometry) (dev : ByteDevice) (p : Partition) (slot : UInt32)
    (tail : List UInt8) : Prop :=
  ∀ array ∈ [g.primaryArray dev, g.backupArray dev],
    HasEntry g.entrySize.toNat dev.sizeBytes array p slot tail

theorem hasEntries_committed (crc32 : List UInt8 → UInt32) (diskGuid : Guid) {dev : ByteDevice}
    {partitions : List Partition} {g : GptGeometry} {tails : EntryTails} {plan : GptPlan}
    (accepted : plan.Accepted dev partitions g tails) {p : Partition} {slot : UInt32}
    (seat : (p, slot) ∈ partitions.zip plan.slots) {uuid : Guid} (named : p.uuid = some uuid) :
    HasEntries g (plan.committed crc32 diskGuid accepted) p slot (paddedTail g tails uuid) := by
  have sameLength := length_committed crc32 diskGuid accepted
  have held := hasEntry_of_seat accepted seat named
  have primary := slice_committed_array crc32 diskGuid accepted
  have backup := slice_committed_backupArray crc32 diskGuid accepted
  rw [← sizeBytes_eq sameLength] at held
  intro array member
  simp only [GptGeometry.primaryArray, GptGeometry.backupArray, sameLength, primary, backup,
    List.mem_cons, List.not_mem_nil, or_false, or_self] at member
  rw [member]
  exact held

/-- After a commit of an edited set, both arrays have each partition in the slot it was
given, with the tail it had on the disk, and with zeros when it was added. -/
theorem tails_follow_partitions (crc32 : List UInt8 → UInt32) {dev after : ByteDevice}
    {set : PartitionSet} (read : PartitionSet.fromProbe crc32 dev = .ok set)
    (gpt : set.tableKind = .gpt) (large : 128 < set.gptGeometry.entrySize.toNat)
    {edits : List Edit} (fresh : ∀ edit ∈ edits, edit.Fresh set)
    (committed : ((Edit.applyAll edits set).commit crc32).exec dev = (.ok (), after)) :
    ∃ slots, (Edit.applyAll edits set).assignedSlots = .ok slots ∧
      ∀ i p, (Edit.applyAll edits set).partitions[i]? = some p → ∃ slot, slots[i]? = some slot ∧
        (∀ j, Edit.originAll edits set i = some j → ∃ q own, set.partitions[j]? = some q ∧
          q.slot = some own ∧ q.uuid = p.uuid ∧
          HasEntries set.gptGeometry after p slot (tailAt set.gptGeometry.entrySize.toNat
            (set.gptGeometry.primaryArray dev) own.toNat)) ∧
        (Edit.originAll edits set i = none →
          HasEntries set.gptGeometry after p slot
            (List.replicate (set.gptGeometry.entrySize.toNat - 128) 0)) := by
  have same := Edit.sameTable_applyAll set edits
  obtain ⟨sameTails, _⟩ := Edit.kept_applyAll set edits
  obtain ⟨plan, planned, _, accepted, left⟩ :=
    PartitionSet.commitGpt_eq_ok (same.tableKind.trans gpt) committed
  have assigned : (Edit.applyAll edits set).assignedSlots = .ok plan.slots := by
    have slots := PartitionSet.slots_of_gptPlan planned
    unfold PartitionSet.assignedSlots PartitionSet.tableSlots PartitionSet.keptSlots
    rw [same.tableKind, gpt]
    exact slots
  obtain ⟨lba0, lba1, header, array, source⟩ := readGpt_of_fromProbe read gpt
  obtain ⟨onDisk, width⟩ := array_of_parseEntryArray source.entries
  obtain ⟨listed, absent⟩ := tails_of_readGpt source large
  rw [← source.geometry] at onDisk
  refine ⟨plan.slots, assigned, fun i p present => ?_⟩
  obtain ⟨slot, seated, seat⟩ := mem_zip_of_getElem? accepted.length_slots present
  obtain ⟨r, record⟩ := accepted.seating.records (p, slot) seat
  have named : p.uuid = some r.uuid := uuid_of_entryRecord record
  have held := hasEntries_committed crc32 (Edit.applyAll edits set).diskGuid accepted seat named
  rw [← left, sameTails, same.gptGeometry] at held
  refine ⟨slot, seated, fun j came => ?_, fun added => ?_⟩
  · rcases origin_of_applyAll gpt edits present with ⟨k, q, moved, there, uuid⟩ | ⟨nowhere, _⟩
    · rw [came] at moved
      cases moved
      have member := List.mem_of_getElem? there
      obtain ⟨place, bound, own⟩ := source.seated member
      have known := listed q member r.uuid _ (uuid.trans named) own
      have size : header.partitionEntrySize.toNat = set.gptGeometry.entrySize.toNat := by
        rw [source.geometry]
        rfl
      rw [size] at width
      have placeValue : (UInt32.ofNat place).toNat = place :=
        UInt32.toNat_ofNat_of_lt' (Nat.lt_trans bound (UInt32.toNat_lt _))
      have full := length_tailAt large width bound
      rw [← placeValue] at full
      rw [paddedTail_of_full known full, onDisk] at held
      exact ⟨q, _, there, own, uuid, held⟩
    · rw [came] at nowhere
      cases nowhere
  · rcases origin_of_applyAll gpt edits present with ⟨k, q, moved, _⟩ |
      ⟨_, edit, member, minted, _⟩
    · rw [added] at moved
      cases moved
    · have unknown : set.gptEntryTails r.uuid = none := by
        refine absent r.uuid fun q present => ?_
        exact fresh edit member r.uuid (minted.trans named) q present
      rw [paddedTail_of_none unknown] at held
      exact held

theorem removed_taggedSet : (Edit.applyAll [.remove (.index 0)] taggedSet).partitions =
    [stored (taggedPartition 2048 3) 1] := by
  decide +kernel

/-- The set without its first partition is committed to the hybrid disk. -/
theorem exists_commit_removed :
    ∃ after, ((Edit.applyAll [.remove (.index 0)] taggedSet).commit CyclicSums.ieee).exec
      taggedDisk = (.ok (), after) := by
  have same := Edit.sameTable_applyAll taggedSet [.remove (.index 0)]
  have tails := (Edit.kept_applyAll taggedSet [.remove (.index 0)]).1
  have planned : (gptPlan frontDisk [stored (taggedPartition 2048 3) 1] taggedSet.gptGeometry
      taggedSet.gptEntryTails taggedSet.reserved).map GptPlan.slots = .ok [1] := by
    decide +kernel
  rw [← removed_taggedSet, ← same.gptGeometry, ← tails, ← same.reserved] at planned
  exact exists_commit_taggedDisk same.tableKind planned

/-- The first of two partitions is removed from the hybrid disk; the second keeps its tail. -/
theorem tails_follow_taggedDisk :
    ∃ after, ((Edit.applyAll [.remove (.index 0)] taggedSet).commit CyclicSums.ieee).exec
        taggedDisk = (.ok (), after) ∧
      ∃ p, (Edit.applyAll [.remove (.index 0)] taggedSet).partitions = [p] ∧
        HasEntries taggedSet.gptGeometry after p 1 (tailAt 256
          (taggedSet.gptGeometry.primaryArray taggedDisk) 1) := by
  obtain ⟨after, committed⟩ := exists_commit_removed
  have slot : (Edit.applyAll [.remove (.index 0)] taggedSet).assignedSlots = .ok [1] := by
    decide +kernel
  have origin : Edit.originAll [.remove (.index 0)] taggedSet 0 = some 1 := by decide +kernel
  have fresh : ∀ edit ∈ [Edit.remove (.index 0)], edit.Fresh taggedSet := by
    simp [Edit.Fresh, Edit.minted]
  obtain ⟨slots, assigned, each⟩ := tails_follow_partitions CyclicSums.ieee fromProbe_taggedDisk
    rfl (by decide) fresh committed
  rw [slot] at assigned
  cases assigned
  obtain ⟨given, here, survivor, _⟩ := each 0 (stored (taggedPartition 2048 3) 1)
    (by rw [removed_taggedSet]; rfl)
  cases here
  obtain ⟨q, own, there, placed, _, held⟩ := survivor 1 origin
  cases there
  cases placed
  exact ⟨after, committed, _, removed_taggedSet, held⟩

end DiskPartitions
