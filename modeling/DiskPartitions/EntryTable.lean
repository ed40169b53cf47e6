import DiskPartitions.EntryArray
import DiskPartitions.KeyOrder
import DiskPartitions.OverlapMarking

/-!
# The array a commit builds and the list a probe makes of it

Every accepted partition sits in its own slot, so the array is a table whose
blocks are entries or zeros, and reading it gives the partitions back in slot
order, without issues.
-/

namespace DiskPartitions

open Slices LittleEndian CheckedWords Refusals WriteJournal KeyOrder

/-! ## Accepted partitions -/

/-- What the writer asks of a partition. -/
structure Partition.FitsGpt (p : Partition) (usable : UInt64 × UInt64) : Prop where
  kind : ∃ typeGuid attributes, p.kind = .gpt typeGuid attributes ∧ typeGuid ≠ unusedTypeGuid
  length_pos : 0 < p.length.toNat
  start_aligned : p.start.toNat % 512 = 0
  length_aligned : p.length.toNat % 512 = 0
  bounded : p.start.toNat + p.length.toNat < 2 ^ 64
  first_le : usable.1.toNat ≤ p.start.toNat / 512
  end_le : (p.start.toNat + p.length.toNat - 1) / 512 ≤ usable.2.toNat

theorem rangeIssues_before {startLba endLba first last : UInt64} :
    rangeIssues startLba endLba first last &&& EntryIssue.beforeFirstUsable ≠ 0 ↔
      startLba < first := by
  unfold rangeIssues
  by_cases before : startLba < first <;>
    by_cases past : last < startLba ∨ last < endLba <;>
      simp only [before, past, if_true, if_false] <;> decide

theorem rangeIssues_past {startLba endLba first last : UInt64} :
    rangeIssues startLba endLba first last &&& EntryIssue.pastLastUsable ≠ 0 ↔
      last < startLba ∨ last < endLba := by
  unfold rangeIssues
  by_cases before : startLba < first <;>
    by_cases past : last < startLba ∨ last < endLba <;>
      simp only [before, past, if_true, if_false] <;> decide

theorem aligned_iff (value : UInt64) : value % sectorSize = 0 ↔ value.toNat % 512 = 0 := by
  rw [← UInt64.toNat_inj, UInt64.toNat_mod, toNat_sectorSize]
  rfl

theorem validatePartition_eq_ok {p : Partition} {usable : UInt64 × UInt64} {passed : Unit} :
    validatePartition p usable.1 usable.2 = .ok passed ↔ p.FitsGpt usable := by
  have zero : p.length = 0 ↔ p.length.toNat = 0 := by
    rw [← UInt64.toNat_inj]
    rfl
  constructor
  · intro accepted
    obtain ⟨kind, accepted⟩ := refuseIf_bind_eq_ok.mp accepted
    obtain ⟨_, accepted⟩ := refuseIf_bind_eq_ok.mp accepted
    obtain ⟨aligned, accepted⟩ := refuseIf_bind_eq_ok.mp accepted
    obtain ⟨⟨first, last⟩, span, accepted⟩ := bind_eq_ok.mp accepted
    obtain ⟨before, accepted⟩ := refuseIf_bind_eq_ok.mp accepted
    obtain ⟨past, accepted⟩ := refuseIf_bind_eq_ok.mp accepted
    have used := refuseIf_eq_ok.mp accepted
    obtain ⟨lengthPos, bounded, firstEq, lastEq⟩ := Partition.sectorSpan_eq_ok.mp span
    rw [rangeIssues_before, UInt64.lt_iff_toNat_lt] at before
    rw [rangeIssues_past, UInt64.lt_iff_toNat_lt, UInt64.lt_iff_toNat_lt] at past
    rw [not_or, not_not, not_not, aligned_iff, aligned_iff] at aligned
    refine ⟨?_, lengthPos, aligned.1, aligned.2, bounded, by omega, by omega⟩
    cases own : p.kind with
    | gpt typeGuid attributes =>
        refine ⟨typeGuid, attributes, rfl, fun unused => used ?_⟩
        simp [own, PartitionKind.typeGuid, PartitionKind.gptFields, unused]
    | mbr typeByte active => simp [own, PartitionKind.isGpt] at kind
    | whole => simp [own, PartitionKind.isGpt] at kind
  · rintro ⟨⟨typeGuid, attributes, kind, used⟩, lengthPos, startAligned, lengthAligned,
      bounded, firstLe, endLe⟩
    obtain ⟨first, last, span, firstEq, lastEq⟩ := Partition.exists_sectorSpan lengthPos bounded
    have isGpt : ¬ p.kind.isGpt = false := by simp [kind, PartitionKind.isGpt]
    have nonempty : ¬ p.length = 0 := by
      rw [zero]
      omega
    have aligned : ¬ (p.start % sectorSize ≠ 0 ∨ p.length % sectorSize ≠ 0) := by
      rw [not_or, not_not, not_not, aligned_iff, aligned_iff]
      exact ⟨startAligned, lengthAligned⟩
    have before : ¬ (rangeIssues first last usable.1 usable.2 &&&
        EntryIssue.beforeFirstUsable ≠ 0) := by
      rw [rangeIssues_before, UInt64.lt_iff_toNat_lt]
      omega
    have past : ¬ (rangeIssues first last usable.1 usable.2 &&&
        EntryIssue.pastLastUsable ≠ 0) := by
      rw [rangeIssues_past, UInt64.lt_iff_toNat_lt, UInt64.lt_iff_toNat_lt]
      omega
    have notUnused : ¬ p.kind.typeGuid = some unusedTypeGuid := by
      simpa [kind, PartitionKind.typeGuid, PartitionKind.gptFields] using used
    simp only [validatePartition, refuseIf_of_not isGpt, refuseIf_of_not nonempty,
      refuseIf_of_not aligned, span, ok_bind, refuseIf_of_not before, refuseIf_of_not past,
      refuseIf_of_not notUnused]

/-- The record of a partition holds its own values. -/
theorem entryRecord_eq_ok {p : Partition} {r : EntryRecord} :
    p.entryRecord = .ok r ↔ p.kind = .gpt r.typeGuid r.attributes ∧ p.uuid = some r.uuid ∧
      p.sectorSpan = .ok (r.startLba, r.endLba) ∧ p.label = r.label := by
  unfold Partition.entryRecord
  constructor
  · intro made
    obtain ⟨⟨typeGuid, attributes⟩, kind, made⟩ := bind_eq_ok.mp made
    obtain ⟨uuid, own, made⟩ := bind_eq_ok.mp made
    obtain ⟨⟨first, last⟩, span, made⟩ := bind_eq_ok.mp made
    cases made
    refine ⟨?_, orRefuse_eq_ok.mp own, span, rfl⟩
    have fields := orRefuse_eq_ok.mp kind
    cases own : p.kind with
    | gpt typeGuid attributes =>
        rw [own] at fields
        cases fields
        rfl
    | mbr typeByte active =>
        rw [own] at fields
        cases fields
    | whole =>
        rw [own] at fields
        cases fields
  · rintro ⟨kind, uuid, span, label⟩
    simp only [kind, PartitionKind.gptFields, orRefuse, uuid, span, label, ok_bind, pure_eq_ok]

/-- An accepted partition as it is found again: its label as the name field keeps
it, in the slot it was given, without issues and wholly on the device. -/
def stored (p : Partition) (slot : UInt32) : Partition :=
  { p with
    label := storedLabel p.label
    slot := some slot
    issues := EntryIssue.none
    availableLength := p.length }

theorem availableOnDevice_of_le {start length deviceSize : UInt64}
    (inside : start.toNat + length.toNat ≤ deviceSize.toNat) :
    availableOnDevice start length deviceSize = length := by
  unfold availableOnDevice
  split
  · rfl
  · have enough : length ≤ saturatingSub deviceSize start := by
      rw [UInt64.le_iff_toNat_le, toNat_saturatingSub]
      omega
    exact if_pos enough

theorem entryRecord_lbas {p : Partition} {r : EntryRecord} (record : p.entryRecord = .ok r) :
    r.startLba.toNat = p.start.toNat / 512 ∧
      r.endLba.toNat = (p.start.toNat + p.length.toNat - 1) / 512 := by
  obtain ⟨_, _, span, _⟩ := entryRecord_eq_ok.mp record
  exact (Partition.sectorSpan_eq_ok.mp span).2.2

section Accepted

variable {p : Partition} {usable : UInt64 × UInt64} {r : EntryRecord} {deviceSize : UInt64}
  (fits : p.FitsGpt usable) (record : p.entryRecord = .ok r)

include fits record

theorem entryRecord_readable (bounded : usable.2.toNat + 1 < 2 ^ 55) : r.Readable := by
  obtain ⟨startLba, endLba⟩ := entryRecord_lbas record
  have positive := fits.length_pos
  have endLe := fits.end_le
  refine ⟨?_, by omega, by omega⟩
  obtain ⟨typeGuid, attributes, kind, used⟩ := fits.kind
  obtain ⟨own, _⟩ := entryRecord_eq_ok.mp record
  rw [kind] at own
  cases own
  exact used

/-- What the reader makes of the record of an accepted partition. -/
theorem entryRecord_partition (slot : UInt32) (bounded : usable.2.toNat + 1 < 2 ^ 55)
    (onDevice : (usable.2.toNat + 1) * 512 ≤ deviceSize.toNat) :
    r.partition slot.toNat deviceSize = stored p slot := by
  obtain ⟨startLba, endLba⟩ := entryRecord_lbas record
  obtain ⟨kind, uuid, _, label⟩ := entryRecord_eq_ok.mp record
  have positive := fits.length_pos
  have startAligned := fits.start_aligned
  have lengthAligned := fits.length_aligned
  have endLe := fits.end_le
  have one : (1 : UInt64).toNat = 1 := rfl
  have start : r.startLba * sectorSize = p.start := by
    rw [← UInt64.toNat_inj, toNat_mul_of_lt (by rw [toNat_sectorSize]; omega), toNat_sectorSize]
    omega
  have difference : (r.endLba - r.startLba).toNat = r.endLba.toNat - r.startLba.toNat :=
    toNat_sub_of_le (by omega)
  have sectors : (r.endLba - r.startLba + 1).toNat = r.endLba.toNat - r.startLba.toNat + 1 := by
    rw [toNat_add_of_lt (by omega), difference, one]
  have length : (r.endLba - r.startLba + 1) * sectorSize = p.length := by
    rw [← UInt64.toNat_inj, toNat_mul_of_lt (by rw [sectors, toNat_sectorSize]; omega),
      sectors, toNat_sectorSize]
    omega
  have available : availableOnDevice p.start p.length deviceSize = p.length :=
    availableOnDevice_of_le (by omega)
  unfold EntryRecord.partition stored
  simp only [start, length, available, UInt32.ofNat_toNat, kind, uuid, label]

end Accepted

/-! ## Building the array -/

section Building

variable (g : GptGeometry) (tails : EntryTails)

/-- The entry of a seated partition. -/
def seatImage (p : Partition) : List UInt8 :=
  match p.entryRecord with
  | .ok r => r.image g.entrySize.toNat (fittingTail g tails r.uuid)
  | .error _ => List.replicate g.entrySize.toNat 0

/-- The slot of a seat, as an index. -/
def seatIndex (seat : Partition × UInt32) : Nat := seat.2.toNat

/-- What slot `i` holds once everybody is seated in a table of the given blocks. -/
def seatedBlock (block : Nat → List UInt8) (seats : List (Partition × UInt32)) (i : Nat) :
    List UInt8 :=
  match itemAt seatIndex seats i with
  | some seat => seatImage g tails seat.1
  | none => block i

variable {g tails}

theorem length_seatImage (room : 128 ≤ g.entrySize.toNat) (p : Partition) :
    (seatImage g tails p).length = g.entrySize.toNat := by
  unfold seatImage
  split
  · exact EntryRecord.length_image (length_fittingTail room tails _)
  · exact List.length_replicate

theorem length_seatedBlock (room : 128 ≤ g.entrySize.toNat) {block : Nat → List UInt8}
    {seats : List (Partition × UInt32)} {i : Nat}
    (width : (block i).length = g.entrySize.toNat) :
    (seatedBlock g tails block seats i).length = g.entrySize.toNat := by
  unfold seatedBlock
  split
  · exact length_seatImage room _
  · exact width

/-- One round of the writer's loop on a table whose slot is still empty. -/
theorem writeEntry_blocks (room : 128 ≤ g.entrySize.toNat) {block : Nat → List UInt8}
    {count : Nat} (widths : ∀ index < count, (block index).length = g.entrySize.toNat)
    {seat : Partition × UInt32} (present : seatIndex seat < count)
    (empty : block (seatIndex seat) = List.replicate g.entrySize.toNat 0) {r : EntryRecord}
    (record : seat.1.entryRecord = .ok r) :
    writeEntry g tails (blocks block count) seat =
      .ok (blocks (Function.update block (seatIndex seat) (seatImage g tails seat.1)) count) := by
  have fits : seatIndex seat * g.entrySize.toNat + g.entrySize.toNat ≤
      (blocks block count).length := by
    rw [length_blocks widths, ← Nat.succ_mul]
    exact Nat.mul_le_mul_right _ present
  have laid := layEntry_eq_applyAll room tails r fits
  rw [applyAll_shift_blocks widths present
    (EntryRecord.writes_inside (length_fittingTail room tails r.uuid)), empty] at laid
  unfold writeEntry seatImage
  rw [record, ok_bind, pure_eq_ok]
  exact congrArg Except.ok laid

theorem foldlM_writeEntry (room : 128 ≤ g.entrySize.toNat) {block : Nat → List UInt8}
    {count : Nat} (widths : ∀ index < count, (block index).length = g.entrySize.toNat)
    {seats : List (Partition × UInt32)} (distinct : (seats.map seatIndex).Nodup)
    (bounded : ∀ seat ∈ seats, seatIndex seat < count)
    (empty : ∀ seat ∈ seats, block (seatIndex seat) = List.replicate g.entrySize.toNat 0)
    (records : ∀ seat ∈ seats, ∃ r, seat.1.entryRecord = .ok r) :
    seats.foldlM (writeEntry g tails) (blocks block count) =
      .ok (blocks (seatedBlock g tails block seats) count) := by
  induction seats generalizing block with
  | nil => rfl
  | cons seat rest ih =>
      rw [List.map_cons, List.nodup_cons] at distinct
      have present := bounded seat (by simp)
      have others : ∀ other ∈ rest, seatIndex other ≠ seatIndex seat := by
        intro other member same
        exact distinct.1 (same ▸ List.mem_map_of_mem member)
      obtain ⟨r, record⟩ := records seat (by simp)
      rw [List.foldlM_cons, writeEntry_blocks room widths present (empty seat (by simp)) record,
        ok_bind, ih]
      · congr 1
        apply blocks_congr
        intro i _
        unfold seatedBlock
        rw [itemAt_cons]
        by_cases same : seatIndex seat = i
        · subst same
          rw [if_pos rfl, itemAt_eq_none.mpr others]
          simp
        · rw [if_neg same, Function.update_of_ne (Ne.symm same)]
      · intro index bound
        by_cases same : index = seatIndex seat
        · subst same
          rw [Function.update_self, length_seatImage room]
        · rw [Function.update_of_ne same, widths index bound]
      · exact distinct.2
      · exact fun other member => bounded other (by simp [member])
      · intro other member
        rw [Function.update_of_ne (others other member), empty other (by simp [member])]
      · exact fun other member => records other (by simp [member])

theorem buildEntryArray_eq (room : 128 ≤ g.entrySize.toNat)
    {seats : List (Partition × UInt32)} (distinct : (seats.map seatIndex).Nodup)
    (bounded : ∀ seat ∈ seats, seatIndex seat < g.numEntries.toNat)
    (records : ∀ seat ∈ seats, ∃ r, seat.1.entryRecord = .ok r) :
    buildEntryArray g tails seats =
      .ok (blocks (seatedBlock g tails (fun _ => List.replicate g.entrySize.toNat 0) seats)
        g.numEntries.toNat) := by
  unfold buildEntryArray
  rw [GptGeometry.toNat_arrayBytes, ← blocks_replicate]
  exact foldlM_writeEntry room (fun _ _ => List.length_replicate) distinct bounded
    (fun _ _ => rfl) records

/-- An array is built of entries that all have their values. -/
theorem records_of_buildEntryArray {seats : List (Partition × UInt32)} {array : List UInt8}
    (built : buildEntryArray g tails seats = .ok array) :
    ∀ seat ∈ seats, ∃ r, seat.1.entryRecord = .ok r := by
  have every : ∀ start, seats.foldlM (writeEntry g tails) start = .ok array →
      ∀ seat ∈ seats, ∃ r, seat.1.entryRecord = .ok r := by
    clear built
    induction seats with
    | nil => simp
    | cons seat rest ih =>
        intro start built
        rw [List.foldlM_cons] at built
        obtain ⟨next, first, later⟩ := bind_eq_ok.mp built
        obtain ⟨r, record, _⟩ := bind_eq_ok.mp first
        intro other member
        rcases List.mem_cons.mp member with rfl | inRest
        · exact ⟨r, record⟩
        · exact ih next later other inRest
  exact every _ built

end Building

/-! ## Reading the array -/

/-- The sectors of a partition that has any. -/
def Partition.span (p : Partition) : UInt64 × UInt64 := p.sectorSpan.toOption.getD (0, 0)

theorem Partition.span_of_ok {p : Partition} {span : UInt64 × UInt64}
    (computed : p.sectorSpan = .ok span) : p.span = span := by
  rw [Partition.span, computed]
  rfl

/-- What has to hold of a list of seats for the array it gives to read back. -/
structure Seating (g : GptGeometry) (usable : UInt64 × UInt64)
    (seats : List (Partition × UInt32)) : Prop where
  room : 128 ≤ g.entrySize.toNat
  distinct : (seats.map seatIndex).Nodup
  bounded : ∀ seat ∈ seats, seatIndex seat < g.numEntries.toNat
  fits : ∀ seat ∈ seats, seat.1.FitsGpt usable
  records : ∀ seat ∈ seats, ∃ r, seat.1.entryRecord = .ok r
  apart : (seats.map fun seat => seat.1.span).Pairwise fun a b => ¬ SharesSector a b

/-- The array of a seating. -/
def seatedArray (g : GptGeometry) (tails : EntryTails) (seats : List (Partition × UInt32)) :
    List UInt8 :=
  blocks (seatedBlock g tails (fun _ => List.replicate g.entrySize.toNat 0) seats)
    g.numEntries.toNat

theorem length_seatedArray {g : GptGeometry} (room : 128 ≤ g.entrySize.toNat)
    (tails : EntryTails) (seats : List (Partition × UInt32)) :
    (seatedArray g tails seats).length = g.arrayBytes.toNat := by
  rw [seatedArray, GptGeometry.toNat_arrayBytes]
  exact length_blocks fun _ _ => length_seatedBlock room List.length_replicate

/-- The partitions of a seating in slot order, as the reader reports them. -/
def storedBySlot (g : GptGeometry) (seats : List (Partition × UInt32)) : List Partition :=
  (byKey seatIndex g.numEntries.toNat seats).map fun seat => stored seat.1 seat.2

section Reading

variable {g : GptGeometry} {usable : UInt64 × UInt64} {seats : List (Partition × UInt32)}
  {deviceSize : UInt64}

theorem parseEntries_eq_ok {size : Nat} {array : List UInt8} {slots : List Nat}
    {entry : Nat → Option (Partition × UInt64 × UInt64)}
    (each : ∀ i ∈ slots, parseEntry size deviceSize array i = .ok (entry i)) :
    parseEntries size deviceSize array slots = .ok (slots.filterMap entry) := by
  induction slots with
  | nil => rfl
  | cons i rest ih =>
      rw [parseEntries, each i (by simp), ok_bind, ih fun j member => each j (by simp [member])]
      cases found : entry i with
      | none => rw [List.filterMap_cons_none found]
      | some value =>
          rw [List.filterMap_cons_some found]
          rfl

/-- What the reader finds in slot `i`. -/
theorem parseEntry_seatedArray (seating : Seating g usable seats) (tails : EntryTails)
    (bounded : usable.2.toNat + 1 < 2 ^ 55)
    (onDevice : (usable.2.toNat + 1) * 512 ≤ deviceSize.toNat) {i : Nat}
    (present : i < g.numEntries.toNat) :
    parseEntry g.entrySize.toNat deviceSize (seatedArray g tails seats) i =
      .ok ((itemAt seatIndex seats i).map fun seat =>
        (stored seat.1 seat.2, seat.1.span)) := by
  have widths : ∀ index < g.numEntries.toNat, (seatedBlock g tails
      (fun _ => List.replicate g.entrySize.toNat 0) seats index).length = g.entrySize.toNat :=
    fun _ _ => length_seatedBlock seating.room List.length_replicate
  cases found : itemAt seatIndex seats i with
  | none =>
      apply parseEntry_unused widths present deviceSize seating.room
      simp only [seatedBlock, found]
  | some seat =>
      obtain ⟨member, index⟩ := key_of_itemAt found
      obtain ⟨r, record⟩ := seating.records seat member
      have fits := seating.fits seat member
      have read := parseEntry_image widths present deviceSize
        (length_fittingTail seating.room tails r.uuid)
        (entryRecord_readable fits record bounded)
        (by simp only [seatedBlock, found, seatImage, record])
      have reported : r.partition seat.2.toNat deviceSize = stored seat.1 seat.2 :=
        entryRecord_partition fits record seat.2 bounded onDevice
      have span := Partition.span_of_ok (entryRecord_eq_ok.mp record).2.2.1
      rw [seatIndex] at index
      rw [index] at reported
      rw [seatedArray, read, reported, Option.map_some, span]

theorem rangeIssues_of_fits {p : Partition} (fits : p.FitsGpt usable) :
    rangeIssues p.span.1 p.span.2 usable.1 usable.2 = EntryIssue.none := by
  obtain ⟨first, last, span, firstEq, lastEq⟩ :=
    Partition.exists_sectorSpan fits.length_pos fits.bounded
  have positive := fits.length_pos
  have firstLe := fits.first_le
  have endLe := fits.end_le
  have before : ¬ first < usable.1 := by
    rw [UInt64.lt_iff_toNat_lt]
    omega
  have past : ¬ (usable.2 < first ∨ usable.2 < last) := by
    rw [UInt64.lt_iff_toNat_lt, UInt64.lt_iff_toNat_lt]
    omega
  rw [Partition.span_of_ok span]
  simp only [rangeIssues, before, past, if_false]

theorem span_ordered_of_fits {p : Partition} (fits : p.FitsGpt usable) :
    p.span.1 ≤ p.span.2 := by
  obtain ⟨first, last, span, firstEq, lastEq⟩ :=
    Partition.exists_sectorSpan fits.length_pos fits.bounded
  have positive := fits.length_pos
  rw [Partition.span_of_ok span, UInt64.le_iff_toNat_le]
  simp only
  omega

/-- The reader has no issue with an accepted list of partitions. -/
theorem withIssues_seats (seating : Seating g usable seats) {header : Header}
    (declared : (header.firstUsableLba, header.lastUsableLba) = usable) :
    withIssues header ((byKey seatIndex g.numEntries.toNat seats).map fun seat =>
        (stored seat.1 seat.2, seat.1.span)) = storedBySlot g seats := by
  subst declared
  have perm := byKey_perm seating.distinct seating.bounded
  have fits : ∀ seat ∈ byKey seatIndex g.numEntries.toNat seats,
      seat.1.FitsGpt (header.firstUsableLba, header.lastUsableLba) :=
    fun seat member => seating.fits seat (perm.mem_iff.mp member)
  have clear : markOverlaps ((byKey seatIndex g.numEntries.toNat seats).map
      fun seat => seat.1.span) = List.replicate
        (byKey seatIndex g.numEntries.toNat seats).length false := by
    rw [markOverlaps_of_pairwise, List.length_map]
    · intro span member
      obtain ⟨seat, present, rfl⟩ := List.mem_map.mp member
      exact span_ordered_of_fits (fits seat present)
    · exact ((perm.map fun seat => seat.1.span).pairwise_iff
        fun apart shares => apart shares.symm).mpr seating.apart
  unfold withIssues storedBySlot
  rw [List.map_map]
  change List.zipWith _ _ (markOverlaps ((byKey seatIndex g.numEntries.toNat seats).map
    fun seat => seat.1.span)) = _
  rw [clear]
  apply List.ext_getElem
  · simp
  · intro i inside _
    have present : i < (byKey seatIndex g.numEntries.toNat seats).length := by
      simpa using inside
    have unbroken := rangeIssues_of_fits (fits _ (List.getElem_mem present))
    simp only at unbroken
    simp only [List.getElem_zipWith, List.getElem_map, List.getElem_replicate, unbroken]
    rfl

end Reading

end DiskPartitions
