import DiskPartitions.AcceptedPlans
import DiskPartitions.GptRecommit
import DiskPartitions.HybridSectors

/-!
# Committing what was just committed

A set read back off the device that a commit has just written plans the same table
again: the same array, the same headers.  Only LBA 0 can change, and only when the first
commit left an old marker alone in it.
-/

namespace DiskPartitions

open Slices LittleEndian CheckedWords Refusals WriteJournal KeyOrder FallibleState
open scoped List

/-! ## The same array -/

/-- The label holds no U+0000. -/
def NulFree (label : Option String) : Prop :=
  ∀ text ∈ label, Char.ofNat 0 ∉ text.toList

instance (label : Option String) : Decidable (NulFree label) :=
  match label with
  | none => isTrue fun _ member => absurd member (by simp)
  | some text => decidable_of_iff (Char.ofNat 0 ∉ text.toList) (by simp [NulFree])

/-- A label without U+0000 fills the name field as its stored form does. -/
theorem fittingLabel_storedLabel {label : Option String} (clear : NulFree label) :
    fittingLabel (storedLabel label) = fittingLabel label := by
  cases label with
  | none => rfl
  | some text =>
      have whole : (Utf16.greedyFitting 36 text.toList).takeWhile (· ≠ Char.ofNat 0) =
          Utf16.greedyFitting 36 text.toList := by
        rw [List.takeWhile_eq_self_iff]
        intro c member
        have listed : c ∈ text.toList := by
          rw [Utf16.greedyFitting_eq_take] at member
          exact List.mem_of_mem_take member
        have other : c ≠ Char.ofNat 0 := fun zero => clear text rfl (zero ▸ listed)
        simpa using other
      have again : Utf16.greedyFitting 36 (Utf16.greedyFitting 36 text.toList) =
          Utf16.greedyFitting 36 text.toList :=
        Utf16.greedyFitting_of_le (Utf16.unitLength_greedyFitting 36 text.toList)
      simp only [storedLabel, Option.bind_some, Utf16.longestFitting_eq_greedyFitting, whole]
      by_cases empty : (Utf16.greedyFitting 36 text.toList).isEmpty = true
      · rw [if_pos empty]
        rw [List.isEmpty_iff] at empty
        simp only [fittingLabel, Option.map_some, Option.getD_some, empty]
        rfl
      · rw [if_neg empty]
        simp only [fittingLabel, Option.map_some, Option.getD_some, String.toList_ofList, again]

/-- Zeros after the tail are there anyway. -/
theorem EntryRecord.image_padded {r : EntryRecord} {tail : List UInt8} {size zeros : Nat}
    (room : 128 + tail.length + zeros ≤ size) :
    r.image size (tail ++ List.replicate zeros 0) = r.image size tail := by
  have same : splice (List.replicate size (0 : UInt8)) 128 (tail ++ List.replicate zeros 0) =
      splice (List.replicate size 0) 128 tail := by
    rw [← splice_splice_adjacent _ _ _ _ (by
      rw [List.length_replicate, List.length_replicate]
      exact room)]
    have inside : 128 + tail.length + zeros ≤
        (splice (List.replicate size (0 : UInt8)) 128 tail).length := by
      rw [length_splice (by rw [List.length_replicate]; omega), List.length_replicate]
      exact room
    have held : slice (splice (List.replicate size (0 : UInt8)) 128 tail) (128 + tail.length)
        zeros = List.replicate zeros 0 := by
      rw [slice_splice_disjoint (by rw [List.length_replicate]; omega) (.inr (Nat.le_refl _)),
        slice_replicate 0 room]
    have kept := splice_slice_self inside
    rw [held] at kept
    exact kept
  have first : ∀ data, r.image size data =
      applyAll (r.writes []).tail (splice (List.replicate size 0) 128 data) := by
    intro data
    have tailFirst : r.writes data = ⟨128, data⟩ :: (r.writes []).tail := rfl
    rw [image, tailFirst, applyAll_cons, Write.apply]
  rw [first, first, same]

/-- The image of an entry depends on the label only through the text of the name field. -/
theorem EntryRecord.image_congr {r other : EntryRecord} {tail : List UInt8} {size : Nat}
    (same : other = { r with label := other.label })
    (text : fittingLabel other.label = fittingLabel r.label) :
    other.image size tail = r.image size tail := by
  unfold image writes
  rw [text, same]
  rfl

/-- The record of a partition as it is found again. -/
theorem entryRecord_stored {p : Partition} {r : EntryRecord} (record : p.entryRecord = .ok r)
    (slot : UInt32) :
    (stored p slot).entryRecord = .ok { r with label := storedLabel r.label } := by
  obtain ⟨kind, uuid, span, label⟩ := entryRecord_eq_ok.mp record
  exact entryRecord_eq_ok.mpr ⟨kind, uuid, span, congrArg storedLabel label⟩

section Restored

variable {dev : ByteDevice} {partitions : List Partition} {g : GptGeometry}
  {tails again : EntryTails} {plan : GptPlan} {usable : UInt64 × UInt64}

/-- The tail that is found again fills the entry as the old one did. -/
theorem image_reread (room : 128 ≤ g.entrySize.toNat)
    (reread : RereadTails g tails partitions again) {p : Partition} (member : p ∈ partitions)
    {r : EntryRecord} (record : p.entryRecord = .ok r) :
    r.image g.entrySize.toNat (fittingTail g again r.uuid) =
      r.image g.entrySize.toNat (fittingTail g tails r.uuid) := by
  have fitting := length_fittingTail room tails r.uuid
  by_cases standard : g.entrySize.toNat ≤ 128
  · have none : ∀ other, fittingTail g other r.uuid = [] := by
      intro other
      unfold fittingTail entryStandardBytes
      rw [Nat.sub_eq_zero_of_le standard, List.take_zero]
    rw [none, none]
  · have found := reread.listed (Nat.lt_of_not_le standard) p member r.uuid
      (uuid_of_entryRecord record)
    have width : (paddedTail g tails r.uuid).length = g.entrySize.toNat - 128 := by
      rw [paddedTail, List.length_append, List.length_replicate]
      omega
    have whole : fittingTail g again r.uuid = paddedTail g tails r.uuid := by
      rw [fittingTail, found, Option.getD_some, entryStandardBytes, ← width, List.take_length]
    rw [whole]
    exact EntryRecord.image_padded (by omega)

theorem seatImage_stored (room : 128 ≤ g.entrySize.toNat)
    (reread : RereadTails g tails partitions again) {p : Partition} (member : p ∈ partitions)
    {r : EntryRecord} (record : p.entryRecord = .ok r) (clear : NulFree p.label) (slot : UInt32) :
    seatImage { g with declaredUsable := some usable } again (stored p slot) =
      seatImage g tails p := by
  have label := (entryRecord_eq_ok.mp record).2.2.2
  rw [label] at clear
  simp only [seatImage, entryRecord_stored record, record]
  rw [← image_reread room reread member record]
  exact EntryRecord.image_congr rfl (fittingLabel_storedLabel clear)

/-- The array of the partitions as they are found again is the array they were found in. -/
theorem seatedArray_stored (accepted : plan.Accepted dev partitions g tails)
    (reread : RereadTails g tails partitions again)
    (clear : ∀ p ∈ partitions, NulFree p.label) :
    seatedArray { g with declaredUsable := some usable } again
        ((byKey seatIndex g.numEntries.toNat (partitions.zip plan.slots)).map
          fun seat => (stored seat.1 seat.2, seat.2)) =
      seatedArray g tails (partitions.zip plan.slots) := by
  have seating := accepted.seating
  refine blocks_congr fun i _ => ?_
  have index : seatIndex ∘ (fun seat : Partition × UInt32 => (stored seat.1 seat.2, seat.2)) =
      seatIndex := rfl
  unfold seatedBlock
  rw [itemAt_map, index, itemAt_byKey seating.distinct seating.bounded]
  cases found : itemAt seatIndex (partitions.zip plan.slots) i with
  | none => rfl
  | some seat =>
      have member := (key_of_itemAt found).1
      have present := (List.of_mem_zip member).1
      obtain ⟨r, record⟩ := seating.records seat member
      exact seatImage_stored seating.room reread present record (clear _ present) seat.2

end Restored

/-! ## The same plan -/

/-- A usable range that was settled is settled again once the table declares it. -/
theorem usableRange_declared {g : GptGeometry} {total : UInt64} {usable : UInt64 × UInt64}
    (range : g.usableRange total = .ok usable) :
    { g with declaredUsable := some usable }.usableRange total = .ok usable := by
  have settled := GptGeometry.usableRange_eq_ok range
  have shape := settled.wellShaped
  have first := GptGeometry.toNat_firstPossible shape
  have room := settled.room
  have last := GptGeometry.toNat_lastPossible shape
    (by omega : g.arraySectors.toNat + 2 ≤ total.toNat)
  have after : ¬ usable.1 < g.entryLba + g.arraySectors := by
    rw [UInt64.lt_iff_toNat_lt, first]
    exact Nat.not_lt.mpr settled.first_ge
  have before : ¬ total - 1 - g.backupReserveSectors < usable.2 := by
    have low := settled.last_lt
    rw [UInt64.lt_iff_toNat_lt, last]
    omega
  have forward : ¬ usable.2 < usable.1 := by
    rw [UInt64.lt_iff_toNat_lt]
    exact Nat.not_lt.mpr settled.first_le_last
  unfold GptGeometry.usableRange at range
  obtain ⟨_, shaped, range⟩ := bind_eq_ok.mp range
  obtain ⟨large, _⟩ := refuseIf_bind_eq_ok.mp range
  have sameShape : { g with declaredUsable := some usable }.checkShape = g.checkShape := rfl
  have checked : (do
      refuseIf (usable.1 < g.entryLba + g.arraySectors)
        (Error.invalid "the table's first usable LBA is inside its own entry array")
      refuseIf (total - 1 - g.backupReserveSectors < usable.2)
        (Error.invalid "the table's last usable LBA is inside the space the backup copy needs")
      refuseIf (usable.2 < usable.1) (Error.invalid "the table's usable range runs backwards")
      return (usable.1, usable.2)) = .ok usable := by
    rw [refuseIf_of_not after, ok_bind, refuseIf_of_not before, ok_bind, refuseIf_of_not forward,
      ok_bind, pure_eq_ok]
  unfold GptGeometry.usableRange
  rw [sameShape, shaped, ok_bind]
  change (do refuseIf (total ≤ g.entryLba + g.arraySectors + g.backupReserveSectors) _; _) = _
  rw [refuseIf_of_not large, ok_bind]
  exact checked

section Again

variable {dev : ByteDevice} {partitions : List Partition} {g : GptGeometry}
  {tails : EntryTails} {plan : GptPlan} (accepted : plan.Accepted dev partitions g tails)

include accepted

/-- Every partition is found again in the slot it was given, and keeps it. -/
theorem assignSlots_stored :
    assignSlots (storedBySlot g (partitions.zip plan.slots)) g.numEntries =
      .ok ((byKey seatIndex g.numEntries.toNat (partitions.zip plan.slots)).map Prod.snd) := by
  have seating := accepted.seating
  have sorted := byKey_perm seating.distinct seating.bounded
  have carried : (storedBySlot g (partitions.zip plan.slots)).filterMap Partition.slot =
      (byKey seatIndex g.numEntries.toNat (partitions.zip plan.slots)).map Prod.snd := by
    rw [storedBySlot, List.filterMap_map]
    exact congrFun List.filterMap_eq_map _
  have distinct : ((byKey seatIndex g.numEntries.toNat (partitions.zip plan.slots)).map
      Prod.snd).Nodup := by
    have indices := (sorted.map seatIndex).nodup_iff.mpr seating.distinct
    have split : (byKey seatIndex g.numEntries.toNat (partitions.zip plan.slots)).map seatIndex =
        ((byKey seatIndex g.numEntries.toNat (partitions.zip plan.slots)).map Prod.snd).map
          UInt32.toNat := by
      rw [List.map_map]
      rfl
    rw [split] at indices
    exact indices.of_map
  have bounded : ∀ slot ∈ (byKey seatIndex g.numEntries.toNat (partitions.zip plan.slots)).map
      Prod.snd, slot.toNat < g.numEntries.toNat := by
    intro slot member
    obtain ⟨seat, present, rfl⟩ := List.mem_map.mp member
    exact seating.bounded seat (sorted.mem_iff.mp present)
  have few : (storedBySlot g (partitions.zip plan.slots)).length ≤ g.numEntries.toNat := by
    rw [storedBySlot, List.length_map]
    refine (List.length_filterMap_le _ _).trans ?_
    rw [List.length_range]
  obtain ⟨slots, assigned⟩ := @exists_assignSlots (storedBySlot g (partitions.zip plan.slots))
    g.numEntries [] (by rw [List.nil_append, carried]; exact distinct)
    (by rw [List.nil_append, carried]; exact bounded) few
  obtain ⟨lengths, _, _, own⟩ := assignSlotsWithTaken_eq_ok assigned
  have kept := slots_eq_filterMap lengths own fun p member => by
    obtain ⟨seat, _, rfl⟩ := mem_storedBySlot accepted member
    exact ⟨seat.2, rfl⟩
  rw [← carried, ← kept]
  exact assigned

/-- The plan for the partitions as they are found again. -/
theorem gptPlan_stored {after : ByteDevice} (writable : after.writable = true)
    (size : after.sizeBytes = dev.sizeBytes)
    (range : g.usableRange (dev.sizeBytes / sectorSize) = .ok plan.usable)
    (few : partitions.length ≤ g.numEntries.toNat)
    {again : EntryTails} (reread : RereadTails g tails partitions again)
    (clear : ∀ p ∈ partitions, NulFree p.label) {lba0 : List ReservedEntry} {sector : List UInt8}
    (merged : plannedLba0 after (storedBySlot g (partitions.zip plan.slots)) lba0 =
      .ok sector) :
    ∃ spans slots, gptPlan after (storedBySlot g (partitions.zip plan.slots))
      { g with declaredUsable := some plan.usable } again lba0 =
        .ok ⟨plan.usable, spans, slots, plan.array, sector⟩ := by
  have seating := accepted.seating
  have sorted := byKey_perm seating.distinct seating.bounded
  have length : (storedBySlot g (partitions.zip plan.slots)).length = partitions.length := by
    rw [storedBySlot, List.length_map, sorted.length_eq, List.length_zip, accepted.length_slots,
      Nat.min_self]
  have fits : ∀ p ∈ storedBySlot g (partitions.zip plan.slots), p.FitsGpt plan.usable := by
    intro p member
    obtain ⟨seat, present, rfl⟩ := mem_storedBySlot accepted member
    obtain ⟨kind, positive, start, whole, bounded, first, last⟩ := seating.fits seat present
    exact ⟨kind, positive, start, whole, bounded, first, last⟩
  have named : ∀ p ∈ storedBySlot g (partitions.zip plan.slots), ∃ uuid, p.uuid = some uuid := by
    intro p member
    obtain ⟨seat, present, rfl⟩ := mem_storedBySlot accepted member
    obtain ⟨r, record⟩ := seating.records seat present
    have own : seat.1.uuid = some r.uuid := uuid_of_entryRecord record
    exact ⟨r.uuid, own⟩
  have apart : ((storedBySlot g (partitions.zip plan.slots)).map Partition.span).Pairwise
      fun a b => ¬ SharesSector a b := by
    have spans : (storedBySlot g (partitions.zip plan.slots)).map Partition.span =
        (byKey seatIndex g.numEntries.toNat (partitions.zip plan.slots)).map
          fun seat => seat.1.span := by
      rw [storedBySlot, List.map_map]
      rfl
    rw [spans]
    exact ((sorted.map fun seat => seat.1.span).pairwise_iff
      fun apart shares => apart shares.symm).mpr seating.apart
  have settled : { g with declaredUsable := some plan.usable }.usableRange
      (after.sizeBytes / sectorSize) = .ok plan.usable := by
    rw [size]
    exact usableRange_declared range
  have planned := @gptPlan_of_fits after _ { g with declaredUsable := some plan.usable }
    plan.usable again lba0 _ sector writable settled (by rw [length]; exact few) fits named apart
    (assignSlots_stored accepted) merged
  have seats : (storedBySlot g (partitions.zip plan.slots)).zip
      ((byKey seatIndex g.numEntries.toNat (partitions.zip plan.slots)).map Prod.snd) =
      (byKey seatIndex g.numEntries.toNat (partitions.zip plan.slots)).map
        fun seat => (stored seat.1 seat.2, seat.2) := List.zip_map'
  rw [seats, seatedArray_stored accepted reread clear, ← accepted.array_eq] at planned
  exact ⟨_, _, planned⟩

end Again

/-! ## The sector a commit leaves -/

/-- The marker of a new protective MBR. -/
def protectiveEntry (dev : ByteDevice) : Bytes16 :=
  bytes16At (protectiveMbr (dev.sizeBytes / sectorSize)) 446

section Protective

variable (total : UInt64)

theorem inside_protectiveMbr :
    ∀ write ∈ protectiveWrites total, write.Inside (List.replicate 512 (0 : UInt8)).length := by
  rw [List.length_replicate]
  simp [protectiveWrites, Write.Inside]

theorem slice_protectiveMbr (write : Write UInt8) (member : write ∈ protectiveWrites total) :
    slice (protectiveMbr total) write.offset write.data.length = write.data := by
  have apart : (protectiveWrites total).Pairwise Write.Disjoint := by
    simp [protectiveWrites, Write.Disjoint]
  exact slice_applyAll_of_mem (inside_protectiveMbr total) apart member

theorem signed_protectiveMbr : hasBootSignature (protectiveMbr total) = true := by
  have held := slice_protectiveMbr total ⟨510, [0x55, 0xAA]⟩ (by simp [protectiveWrites])
  have first : (slice (protectiveMbr total) 510 2)[0]? = some 0x55 := congrArg (·[0]?) held
  have second : (slice (protectiveMbr total) 510 2)[1]? = some 0xAA := congrArg (·[1]?) held
  rw [getElem?_slice, if_pos (by decide)] at first second
  simp [hasBootSignature, byteAt, List.getD_eq_getElem?_getD, first, second]

theorem typeByte_protectiveMbr :
    byteAt (sectorEntry (protectiveMbr total) 0) MbrLayout.typeByte = MbrTypes.gptProtective := by
  have held := slice_protectiveMbr total ⟨446, [0x00, 0x00, 0x02, 0x00, MbrTypes.gptProtective]⟩
    (by simp [protectiveWrites])
  have fifth : (slice (protectiveMbr total) 446 5)[4]? = some MbrTypes.gptProtective :=
    congrArg (·[4]?) held
  have place : MbrLayout.entryAt 0 + MbrLayout.typeByte = 446 + 4 := rfl
  rw [getElem?_slice, if_pos (by decide)] at fifth
  rw [byteAt_sectorEntry (by decide), place, byteAt, List.getD_eq_getElem?_getD, fifth,
    Option.getD_some]

/-- The other slots of a new protective MBR are unused. -/
theorem sectorEntry_protectiveMbr {i : Nat} (place : i < MbrLayout.entryCount) (later : i ≠ 0) :
    sectorEntry (protectiveMbr total) i = emptyEntry := by
  have inside : MbrLayout.entryAt i + MbrLayout.entrySize ≤ 512 := by
    unfold MbrLayout.entryCount at place
    rw [MbrLayout.entryAt, MbrLayout.tableStart, MbrLayout.entrySize]
    omega
  have between : 462 ≤ MbrLayout.entryAt i ∧ MbrLayout.entryAt i + MbrLayout.entrySize ≤ 510 := by
    unfold MbrLayout.entryCount at place
    rw [MbrLayout.entryAt, MbrLayout.tableStart, MbrLayout.entrySize]
    omega
  have clear : slice (applyAll (protectiveWrites total) (List.replicate 512 0))
      (MbrLayout.entryAt i) MbrLayout.entrySize =
      slice (List.replicate 512 0) (MbrLayout.entryAt i) MbrLayout.entrySize := by
    refine slice_applyAll_disjoint (inside_protectiveMbr total) ?_
    simp only [protectiveWrites, List.forall_mem_cons, List.length_cons, List.length_nil,
      length_u32Bytes, length_chsForLba, List.not_mem_nil, false_imp_iff, implies_true, and_true]
    omega
  rw [slice_replicate 0 inside] at clear
  exact clear

theorem bytes_protectiveEntry (dev : ByteDevice) :
    (protectiveEntry dev).bytes =
      sectorEntry (protectiveMbr (dev.sizeBytes / sectorSize)) 0 :=
  bytes_bytes16At (by rw [length_protectiveMbr]; decide)

/-- A new protective MBR is settled. -/
theorem settled_protectiveMbr (partitions : List Partition) :
    Settled partitions (sectorEntry (protectiveMbr total)) 0 where
  widths := length_sectorEntry (length_protectiveMbr total)
  place := by decide
  marker := typeByte_protectiveMbr total
  others := fun _ place later => .inl (sectorEntry_protectiveMbr total place later)

end Protective

/-- Partitions in the same places keep the same mirrors. -/
theorem hybridLba0_congr {partitions other : List Partition}
    (same : partitions.map (fun p => (p.start, p.length)) ~
      other.map fun p => (p.start, p.length))
    (current : List UInt8) (lba0 : List ReservedEntry) (protective : Bytes16) :
    hybridLba0 current lba0 protective partitions =
      hybridLba0 current lba0 protective other := by
  have found : ∀ start length,
      partitions.any (fun p => p.start = start ∧ p.length = length) =
        other.any fun p => p.start = start ∧ p.length = length := by
    intro start length
    have pair : ∀ parts : List Partition,
        parts.any (fun p => p.start = start ∧ p.length = length) = true ↔
          (start, length) ∈ parts.map fun p => (p.start, p.length) := by
      intro parts
      simp [Prod.ext_iff, and_comm]
    rw [Bool.eq_iff_iff, pair, pair, same.mem_iff]
  have keep : ∀ rebuild, keepLba0Entry rebuild partitions = keepLba0Entry rebuild other := by
    intro rebuild
    funext state entry
    simp only [keepLba0Entry, found]
  simp only [hybridLba0, keep]

section Sectors

variable {dev : ByteDevice} {partitions : List Partition} {lba0 : List ReservedEntry}
  {sector : List UInt8} (legacy : LegacyEntries lba0) (large : 512 ≤ dev.bytes.length)
  (merged : plannedLba0 dev partitions lba0 = .ok sector)

include legacy large merged

/-- The sector a commit leaves, and when the next commit leaves it as it is. -/
theorem settled_of_plannedLba0 :
    ∃ boot block k, boot.length = MbrLayout.tableStart ∧ Settled partitions block k ∧
      sector = mbrSector boot block [0x55, 0xAA] ∧
      (hybridLba0 sector (lba0Entries sector) (protectiveEntry dev) partitions = .ok sector ↔
        ¬ StrandsMarker (slice dev.bytes 0 512) lba0 (protectiveEntry dev) partitions) := by
  have marks : byteAt (protectiveEntry dev).bytes MbrLayout.typeByte = MbrTypes.gptProtective := by
    rw [bytes_protectiveEntry]
    exact typeByte_protectiveMbr _
  unfold plannedLba0 at merged
  simp only at merged
  split at merged
  next none =>
    have empty := List.isEmpty_iff.mp none
    subst empty
    have bare := Except.ok.inj merged
    have parts := mbrSector_of_signed (length_protectiveMbr (dev.sizeBytes / sectorSize))
      (signed_protectiveMbr _)
    have bootLength := length_current_boot (length_protectiveMbr (dev.sizeBytes / sectorSize))
    have settled := settled_protectiveMbr (dev.sizeBytes / sectorSize) partitions
    have kept := (hybridLba0_settled_iff bootLength settled (protectiveEntry dev)).mpr
      fun _ => bytes_protectiveEntry dev
    rw [parts, bare] at kept
    refine ⟨_, _, _, bootLength, settled, ?_, iff_of_true kept ?_⟩
    · rw [parts, bare]
    · rintro ⟨_, ⟨m, found, _⟩, _⟩
      cases found
  next some =>
    rw [ByteDevice.readAt_of_le (by simpa using large)] at merged
    have width : (slice dev.bytes 0 512).length = 512 := length_slice (by omega)
    obtain ⟨block, k, held, rfl⟩ := merged_of_hybridLba0 width legacy merged
    have bootLength := length_current_boot width
    exact ⟨_, block, k, bootLength, settled_of_merged legacy marks held, rfl,
      hybridLba0_merged_iff bootLength legacy marks held⟩

/-- The next commit settles LBA 0, and changes it when the marker was stranded. -/
theorem exists_plannedLba0_again {after : ByteDevice} (size : after.sizeBytes = dev.sizeBytes)
    (enough : 512 ≤ after.bytes.length) (held : slice after.bytes 0 512 = sector)
    {other : List Partition}
    (same : other.map (fun p => (p.start, p.length)) ~
      partitions.map fun p => (p.start, p.length)) :
    ∃ again, plannedLba0 after other (lba0Entries sector) = .ok again ∧
      (again = sector ↔
        ¬ StrandsMarker (slice dev.bytes 0 512) lba0 (protectiveEntry dev) partitions) := by
  obtain ⟨boot, block, k, bootLength, settled, parts, unchanged⟩ :=
    settled_of_plannedLba0 legacy large merged
  have listed := mem_entries_settled bootLength settled settled.place
    (by rw [settled.marker]; decide)
  have nonempty : ¬ (lba0Entries sector).isEmpty = true := by
    rw [List.isEmpty_iff, parts]
    exact List.ne_nil_of_mem listed
  have relaid := hybridLba0_settled bootLength settled (protectiveEntry dev)
  rw [← parts] at relaid
  rw [relaid, Except.ok.injEq] at unchanged
  refine ⟨_, ?_, unchanged⟩
  unfold plannedLba0
  simp only
  rw [if_neg nonempty, ByteDevice.readAt_of_le (by simpa using enough), held, size]
  change hybridLba0 sector (lba0Entries sector) (protectiveEntry dev) other = _
  rw [hybridLba0_congr same]
  exact relaid

end Sectors

/-! ## The next commit -/

/-- The entries kept off LBA 0 of a GPT disk are as they were read. -/
theorem legacyEntries_initial {crc32 : List UInt8 → UInt32} {set : PartitionSet}
    (initial : set.Initial crc32) (gpt : set.tableKind = .gpt) : LegacyEntries set.reserved := by
  cases initial with
  | emptyGpt diskSize drawn => exact ⟨List.nodup_nil, nofun, nofun⟩
  | emptyMbr diskSize => cases gpt
  | probed dev _ read =>
      obtain ⟨lba0, _, _, _, source⟩ := readGpt_of_fromProbe read gpt
      rw [source.reserved]
      exact legacyEntries_lba0Entries (dev.length_readAt source.lba0_read)

/-- The set of a commit to this device leaves an old marker alone in LBA 0. -/
def PartitionSet.StrandsMarkerOn (set : PartitionSet) (dev : ByteDevice) : Prop :=
  StrandsMarker (slice dev.bytes 0 512) set.reserved (protectiveEntry dev) set.partitions

/-- The writes of a plan whose LBA 0 alone may differ. -/
theorem applyAll_relaid (crc32 : List UInt8 → UInt32) {dev : ByteDevice} {plan : GptPlan}
    {partitions : List Partition} {g : GptGeometry} {tails : EntryTails} {diskGuid : Guid}
    (accepted : plan.Accepted dev partitions g tails) {sector : List UInt8}
    (width : sector.length = 512) :
    applyAll (⟨0, sector⟩ :: (plan.writes crc32 diskGuid g (dev.sizeBytes / sectorSize)).tail)
        (plan.committed crc32 diskGuid accepted).bytes =
      (plan.committed crc32 diskGuid accepted).bytes ↔ sector = plan.lba0 := by
  have length := length_committed crc32 diskGuid accepted
  have room := accepted.usableOn.room
  have inside : ∀ write ∈ plan.writes crc32 diskGuid g (dev.sizeBytes / sectorSize),
      write.Inside (plan.committed crc32 diskGuid accepted).bytes.length := by
    rw [length]
    exact writes_inside crc32 diskGuid accepted
  have listed : plan.writes crc32 diskGuid g (dev.sizeBytes / sectorSize) =
      ⟨0, plan.lba0⟩ :: (plan.writes crc32 diskGuid g (dev.sizeBytes / sectorSize)).tail := rfl
  have fits : (⟨0, sector⟩ : Write UInt8).Inside
      (plan.committed crc32 diskGuid accepted).bytes.length := by
    rw [length]
    change 0 + sector.length ≤ _
    omega
  constructor
  · intro unchanged
    have apart := writes_pairwise crc32 diskGuid accepted
    rw [listed, List.pairwise_cons] at apart
    have front : slice (applyAll (⟨0, sector⟩ ::
        (plan.writes crc32 diskGuid g (dev.sizeBytes / sectorSize)).tail)
        (plan.committed crc32 diskGuid accepted).bytes) 0 sector.length = sector := by
      refine slice_applyAll_written [] ⟨0, sector⟩ _ ?_ fun other member => ?_
      · rw [List.nil_append, List.forall_mem_cons]
        exact ⟨fits, fun write member => inside write (List.mem_of_mem_tail member)⟩
      · have clear := apart.1 other member
        unfold Write.Disjoint at clear ⊢
        rw [accepted.length_lba0] at clear
        rw [width]
        exact clear
    rw [unchanged, width, slice_committed_lba0] at front
    exact front.symm
  · rintro rfl
    rw [← listed]
    exact applyAll_of_held inside fun write member =>
      slice_committed crc32 diskGuid accepted write member

/-- What a second commit does to the device the first has left. -/
theorem PartitionSet.recommit (crc32 : List UInt8 → UInt32) {set : PartitionSet}
    {dev written : ByteDevice} (gpt : set.tableKind = .gpt) (legacy : LegacyEntries set.reserved)
    (clear : ∀ p ∈ set.partitions, NulFree p.label)
    (committed : (set.commit crc32).exec dev = (.ok (), written)) :
    ∃ again after, PartitionSet.fromProbe crc32 written = .ok again ∧
      (again.commit crc32).exec written = (.ok (), after) ∧
      (after.bytes = written.bytes ↔ ¬ set.StrandsMarkerOn dev) := by
  obtain ⟨plan, planned, flushed, accepted, rfl⟩ := PartitionSet.commitGpt_eq_ok gpt committed
  have made := gptPlan_iff.mp planned
  have room := accepted.usableOn.room
  have length := length_committed crc32 set.diskGuid accepted
  have size : (plan.committed crc32 set.diskGuid accepted).sizeBytes = dev.sizeBytes :=
    sizeBytes_eq length
  obtain ⟨again, found, reread⟩ := fromProbe_committed crc32 set.diskGuid accepted
  have places : (storedBySlot set.gptGeometry (set.partitions.zip plan.slots)).map
      (fun p => (p.start, p.length)) ~ set.partitions.map fun p => (p.start, p.length) := by
    refine ((storedBySlot_perm accepted).map _).trans (List.Perm.of_eq ?_)
    rw [← List.map_uncurry_zip_eq_zipWith, List.map_map]
    conv_rhs => rw [← List.map_fst_zip (Nat.le_of_eq accepted.length_slots.symm), List.map_map]
    rfl
  obtain ⟨sector, relaid, unchanged⟩ := exists_plannedLba0_again legacy (by omega) made.lba0 size
    (by omega) (slice_committed_lba0 crc32 set.diskGuid accepted) places
  have writable : (plan.committed crc32 set.diskGuid accepted).writable = true :=
    accepted.writable
  have flushes : (plan.committed crc32 set.diskGuid accepted).flushed = .ok () := flushed
  obtain ⟨spans, slots, next⟩ := gptPlan_stored accepted writable size made.usable
    (Nat.not_lt.mp made.few) reread.tails clear relaid
  rw [← reread.partitions, ← reread.geometry, ← reread.reserved] at next
  have done := @PartitionSet.commitGpt_of_plan crc32 again _ _ reread.tableKind next flushes
  have writes : GptPlan.writes crc32 ⟨plan.usable, spans, slots, plan.array, sector⟩
      again.diskGuid again.gptGeometry
      ((plan.committed crc32 set.diskGuid accepted).sizeBytes / sectorSize) =
      ⟨0, sector⟩ :: (plan.writes crc32 set.diskGuid set.gptGeometry
        (dev.sizeBytes / sectorSize)).tail := by
    rw [reread.diskGuid, reread.geometry, size]
    rfl
  refine ⟨again, _, found, done, ?_⟩
  change applyAll (GptPlan.writes _ _ _ _ _) _ = _ ↔ _
  rw [writes]
  exact (applyAll_relaid crc32 accepted (length_plannedLba0 relaid)).trans unchanged

/-- A GPT that was just committed is read back and committed again without an edit: the
commit succeeds, and it leaves every byte as it is exactly when the first commit did not
leave an old marker alone in LBA 0. -/
theorem recommit_unchanged_iff (crc32 : List UInt8 → UInt32) {start : PartitionSet}
    (initial : start.Initial crc32) (calls : List Call) {dev written : ByteDevice}
    (gpt : (Call.applyAll crc32 calls start).tableKind = .gpt)
    (clear : ∀ p ∈ (Call.applyAll crc32 calls start).partitions, NulFree p.label)
    (committed : ((Call.applyAll crc32 calls start).commit crc32).exec dev = (.ok (), written)) :
    ∃ again after, PartitionSet.fromProbe crc32 written = .ok again ∧
      (again.commit crc32).exec written = (.ok (), after) ∧
      (after.bytes = written.bytes ↔
        ¬ (Call.applyAll crc32 calls start).StrandsMarkerOn dev) := by
  have table := sameTable_run crc32 start calls
  refine PartitionSet.recommit crc32 gpt ?_ clear committed
  rw [table.reserved]
  exact legacyEntries_initial initial (table.tableKind.symm.trans gpt)

/-- The hybrid disk is committed twice, and the second commit changes nothing. -/
theorem recommit_taggedDisk :
    ∃ written again after, (taggedSet.commit CyclicSums.ieee).exec taggedDisk =
        (.ok (), written) ∧
      PartitionSet.fromProbe CyclicSums.ieee written = .ok again ∧
      (again.commit CyclicSums.ieee).exec written = (.ok (), after) ∧
      after.bytes = written.bytes := by
  obtain ⟨written, committed⟩ := exists_commit_taggedSet
  have clear : ∀ p ∈ taggedSet.partitions, NulFree p.label := by decide +kernel
  obtain ⟨again, after, found, second, unchanged⟩ := recommit_unchanged_iff CyclicSums.ieee
    (.probed taggedDisk taggedSet fromProbe_taggedDisk) [] rfl clear committed
  refine ⟨written, again, after, committed, found, second, unchanged.mpr ?_⟩
  rintro ⟨_, _, others⟩
  have mirror : ∃ e ∈ taggedSet.reserved,
      ¬ (e.IsMarker ∨ IsLostMirror taggedSet.partitions e.entry.bytes) := by decide +kernel
  obtain ⟨e, member, neither⟩ := mirror
  exact neither (others e member)

/-- The mirrored partition is removed from the hybrid disk: the commit drops the mirror and
keeps the marker over two sectors, and the next commit stretches it over the disk. -/
theorem recommit_changes_taggedDisk :
    ∃ written again after, PartitionSet.fromProbe CyclicSums.ieee taggedDisk = .ok taggedSet ∧
      ((Edit.applyAll [.remove (.index 0)] taggedSet).commit CyclicSums.ieee).exec taggedDisk =
        (.ok (), written) ∧
      (∀ p ∈ (Edit.applyAll [.remove (.index 0)] taggedSet).partitions, NulFree p.label) ∧
      PartitionSet.fromProbe CyclicSums.ieee written = .ok again ∧
      (again.commit CyclicSums.ieee).exec written = (.ok (), after) ∧
      after.bytes ≠ written.bytes := by
  have same := Edit.sameTable_applyAll taggedSet [.remove (.index 0)]
  obtain ⟨written, committed⟩ := exists_commit_removed
  have clear : ∀ p ∈ (Edit.applyAll [.remove (.index 0)] taggedSet).partitions,
      NulFree p.label := by decide +kernel
  have legacy := legacyEntries_initial (.probed taggedDisk taggedSet fromProbe_taggedDisk) rfl
  rw [← same.reserved] at legacy
  obtain ⟨again, after, found, second, unchanged⟩ := PartitionSet.recommit CyclicSums.ieee
    same.tableKind legacy clear committed
  refine ⟨written, again, after, fromProbe_taggedDisk, committed, clear, found, second,
    fun equal => unchanged.mp equal ?_⟩
  unfold PartitionSet.StrandsMarkerOn
  rw [slice_taggedDisk_lba0, same.reserved, removed_taggedSet]
  have total : protectiveEntry taggedDisk = bytes16At (protectiveMbr 8) 446 := by
    have sectors : eightSectors.sizeBytes / sectorSize = 8 := by decide +kernel
    rw [protectiveEntry, sizeBytes_taggedDisk, sectors]
  rw [total]
  refine ⟨by decide +kernel, ?_, by decide +kernel⟩
  exact ⟨entryOf hybridSector 0, by decide +kernel, by decide +kernel⟩

end DiskPartitions
