import DiskPartitions.AcceptedPlans
import DiskPartitions.HybridMerges
import DiskPartitions.RefusedCommits
import DiskPartitions.TrappingEdits

/-!
# The table an MBR commit writes

Byte for byte: the boot code and the rest of the disk as they were, the reserved entries
verbatim, each partition's entry with the CHS addresses of the entry that described the same
sectors, zeros in every other slot.  What the entries describe shares no sector.
-/

namespace DiskPartitions

open Slices LittleEndian CheckedWords Refusals KeyOrder WriteJournal

/-! ## The overlap check -/

/-- Sorted spans whose neighbours keep apart all keep apart. -/
theorem pairwise_of_neighboursOverlap {spans : List (UInt64 × UInt64)}
    (ordered : ∀ span ∈ spans, span.1 ≤ span.2) (sorted : spans.Pairwise SpanLe)
    (clear : neighboursOverlap spans = false) :
    spans.Pairwise fun a b => ¬ SharesSector a b := by
  induction spans with
  | nil => exact .nil
  | cons first spans ih =>
      cases spans with
      | nil => exact List.pairwise_singleton _ _
      | cons second rest =>
          rw [neighboursOverlap, Bool.or_eq_false_iff, decide_eq_false_iff_not] at clear
          obtain ⟨gap, clear⟩ := clear
          refine List.pairwise_cons.mpr ⟨?_, ih (fun span member => ordered span
            (List.mem_cons_of_mem _ member)) sorted.of_cons clear⟩
          intro other member
          -- the second span starts past the first, and the others no earlier than the second
          have later : second.1 ≤ other.1 := by
            rcases List.mem_cons.mp member with rfl | after
            · exact UInt64.le_refl _
            · have before := (List.pairwise_cons.mp sorted.of_cons).1 other after
              unfold SpanLe at before
              simp only [UInt64.lt_iff_toNat_lt, UInt64.le_iff_toNat_le,
                ← UInt64.toNat_inj] at before ⊢
              omega
          unfold SharesSector
          simp only [UInt64.le_iff_toNat_le] at gap later ⊢
          omega

/-- Spans that pass the check keep apart, in whatever order they come. -/
theorem pairwise_of_sortedCheck {spans : List (UInt64 × UInt64)}
    (ordered : ∀ span ∈ spans, span.1 ≤ span.2)
    (clear : neighboursOverlap (spans.insertionSort SpanLe) = false) :
    spans.Pairwise fun a b => ¬ SharesSector a b := by
  have := spanLe_total
  have := spanLe_trans
  have permuted : (spans.insertionSort SpanLe).Perm spans := List.perm_insertionSort _ _
  have apart := pairwise_of_neighboursOverlap
    (fun span member => ordered span (permuted.mem_iff.mp member))
    (List.pairwise_insertionSort _ _) clear
  exact (permuted.pairwise_iff fun unshared shared => unshared shared.symm).mp apart

theorem ReservedEntry.span_ordered {r : ReservedEntry} {span : UInt64 × UInt64}
    (found : r.span = some span) : span.1 ≤ span.2 := by
  obtain ⟨positive, start, stop⟩ := toNat_span found
  rw [UInt64.le_iff_toNat_le]
  omega

section Plans

variable {dev : ByteDevice} {partitions : List Partition} {reserved : List ReservedEntry}

/-- The spans the writer's first loop records are those of the partitions. -/
theorem spans_of_mapM {totalBytes : UInt64} {spans : List (UInt64 × UInt64)}
    (validated : partitions.mapM (validatedMbrSpan totalBytes) = .ok spans) :
    spans = partitions.map Partition.span := by
  have pairs := mapM_eq_ok validated
  clear validated
  induction pairs with
  | nil => rfl
  | cons head _ ih =>
      obtain ⟨_, _, span⟩ := bind_eq_ok.mp head
      rw [List.map_cons, ih, Partition.span_of_ok span]

/-- What an accepted plan puts into the table keeps apart. -/
theorem apart_of_mbrPlan {plan : MbrPlan} (planned : mbrPlan dev partitions reserved = .ok plan) :
    (partitions.map Partition.span ++ reserved.filterMap ReservedEntry.span).Pairwise
      fun a b => ¬ SharesSector a b := by
  obtain ⟨_, planned⟩ := refuseIf_bind_eq_ok.mp planned
  obtain ⟨_, planned⟩ := refuseIf_bind_eq_ok.mp planned
  obtain ⟨_, planned⟩ := refuseIf_bind_eq_ok.mp planned
  obtain ⟨spans, validated, planned⟩ := bind_eq_ok.mp planned
  obtain ⟨clear, _⟩ := refuseIf_bind_eq_ok.mp planned
  have fits := mapM_validatedMbrSpan validated
  rw [spans_of_mapM validated, Bool.not_eq_true] at clear
  apply pairwise_of_sortedCheck _ clear
  intro span member
  rcases List.mem_append.mp member with own | kept
  · obtain ⟨p, present, rfl⟩ := List.mem_map.mp own
    have fit := fits p present
    have positive := fit.length_pos
    have inside := fit.end_le
    have bounded := dev.sizeBytes.toNat_lt
    obtain ⟨_, first, last⟩ := Partition.sectorSpan_eq_span positive (by omega)
    rw [UInt64.le_iff_toNat_le, first, last]
    omega
  · obtain ⟨r, _, found⟩ := List.mem_filterMap.mp kept
    exact ReservedEntry.span_ordered found

end Plans

/-! ## The entry of a partition -/

/-- The old entry describes the sectors of the partition. -/
def KeepsChs (old : List UInt8) (p : Partition) : Prop :=
  byteAt old MbrLayout.typeByte ≠ MbrTypes.empty ∧
    (u32At old MbrLayout.startLba).toNat = p.start.toNat / 512 ∧
    (u32At old MbrLayout.sectorCount).toNat = p.length.toNat / 512

instance (old : List UInt8) (p : Partition) : Decidable (KeepsChs old p) :=
  inferInstanceAs (Decidable (_ ∧ _))

/-- The sixteen bytes of a partition's entry over the entry that was in its slot: status, CHS
of the first sector, type, CHS of the last, first sector and sector count. -/
def mbrEntryBytes (old : List UInt8) (p : Partition) (typeByte : UInt8) (active : Bool) :
    List UInt8 :=
  [if active then 0x80 else 0x00] ++
    (if KeepsChs old p then slice old 1 3 else List.replicate 3 0) ++ [typeByte] ++
    (if KeepsChs old p then slice old 5 3 else List.replicate 3 0) ++
    encode 4 (p.start.toNat / 512) ++ encode 4 (p.length.toNat / 512)

section Entries

variable {p : Partition} {totalBytes : Nat} (fits : p.FitsMbr totalBytes)

include fits

/-- The fields of an entry hold the exact sector numbers. -/
theorem toNat_mbrFields :
    ((p.start / sectorSize).toUInt32).toNat = p.start.toNat / 512 ∧
      ((p.length / sectorSize).toUInt32).toNat = p.length.toNat / 512 := by
  have first := fits.first_lt
  have sectors := fits.sectors_lt
  constructor
  · rw [UInt64.toNat_toUInt32, UInt64.toNat_div, toNat_sectorSize, Nat.mod_eq_of_lt first]
  · rw [UInt64.toNat_toUInt32, UInt64.toNat_div, toNat_sectorSize, Nat.mod_eq_of_lt sectors]

/-- The writer keeps the CHS addresses exactly when the old entry described the same
sectors. -/
theorem keptChs_eq {old : List UInt8} (width : old.length = MbrLayout.entrySize) :
    keptChs old p = if KeepsChs old p then [⟨1, slice old 1 3⟩, ⟨5, slice old 5 3⟩] else [] := by
  obtain ⟨start, count⟩ := toNat_mbrFields fits
  have same : ∀ {offset : Nat} {value : UInt32}, offset + 4 ≤ old.length →
      (slice old offset 4 = u32Bytes value ↔ (u32At old offset).toNat = value.toNat) := by
    intro offset value inside
    rw [← u32Bytes_u32At inside, u32Bytes_injective.eq_iff, UInt32.toNat_inj]
  have iff : (byteAt old MbrLayout.typeByte ≠ MbrTypes.empty ∧
      slice old MbrLayout.startLba 4 = u32Bytes (p.start / sectorSize).toUInt32 ∧
      slice old MbrLayout.sectorCount 4 = u32Bytes (p.length / sectorSize).toUInt32) ↔
        KeepsChs old p := by
    rw [same (by rw [width]; decide), same (by rw [width]; decide), start, count]
    rfl
  unfold keptChs
  by_cases keeps : KeepsChs old p
  · rw [if_pos (iff.mpr keeps), if_pos keeps]
  · rw [if_neg (fun held => keeps (iff.mp held)), if_neg keeps]

/-- The CHS addresses of an entry are the old entry's or zeros. -/
theorem chs_mbrEntryWrites {old : List UInt8} (width : old.length = MbrLayout.entrySize)
    (fields : UInt8 × Bool) :
    slice (applyAll (mbrEntryWrites old p fields) emptyEntry) 1 3 =
        (if KeepsChs old p then slice old 1 3 else List.replicate 3 0) ∧
      slice (applyAll (mbrEntryWrites old p fields) emptyEntry) 5 3 =
        (if KeepsChs old p then slice old 5 3 else List.replicate 3 0) := by
  have kept := keptChs_eq fits width
  have inside : ∀ write ∈ mbrEntryWrites old p fields, write.Inside emptyEntry.length := by
    rw [length_emptyEntry]
    exact mbrEntryWrites_inside
  split at kept
  next keeps =>
      have three : ∀ start, start + 3 ≤ MbrLayout.entrySize → (slice old start 3).length = 3 :=
        fun start bound => length_slice (by rw [width]; exact bound)
      have front := @slice_mbrEntryWrites old p fields
        ⟨1, slice old 1 3⟩ (by simp [mbrEntryWrites, kept])
      have back := @slice_mbrEntryWrites old p fields
        ⟨5, slice old 5 3⟩ (by simp [mbrEntryWrites, kept])
      simp only [three 1 (by decide), three 5 (by decide)] at front back
      rw [if_pos keeps, if_pos keeps]
      exact ⟨front, back⟩
  next keeps =>
      rw [if_neg keeps, if_neg keeps]
      constructor
      · rw [slice_applyAll_disjoint inside]
        · rfl
        · simp [mbrEntryWrites, kept, MbrLayout.typeByte, MbrLayout.startLba,
            MbrLayout.sectorCount]
      · rw [slice_applyAll_disjoint inside]
        · rfl
        · simp [mbrEntryWrites, kept, MbrLayout.typeByte, MbrLayout.startLba,
            MbrLayout.sectorCount]

/-- The entry the writer lays out, byte for byte. -/
theorem mbrImage_eq {existing : List UInt8} {slot : UInt32} {typeByte : UInt8} {active : Bool}
    (kind : p.kind = .mbr typeByte active)
    (inside : MbrLayout.entryAt slot.toNat + 16 ≤ existing.length) :
    mbrImage existing (p, slot) =
      mbrEntryBytes (slice existing (MbrLayout.entryAt slot.toNat) 16) p typeByte active := by
  obtain ⟨start, count⟩ := toNat_mbrFields fits
  have own : p.kind.mbrFields = some (typeByte, active) := by
    rw [kind]
    rfl
  have image : mbrImage existing (p, slot) = applyAll (mbrEntryWrites
      (slice existing (MbrLayout.entryAt slot.toNat) 16) p (typeByte, active)) emptyEntry := by
    unfold mbrImage
    rw [own]
    rfl
  generalize old_eq : slice existing (MbrLayout.entryAt slot.toNat) 16 = old at image ⊢
  have width : old.length = MbrLayout.entrySize := by
    rw [← old_eq]
    exact length_slice inside
  obtain ⟨front, back⟩ := chs_mbrEntryWrites fits width (typeByte, active)
  have read : ∀ write ∈ mbrEntryWrites old p (typeByte, active),
      slice (mbrImage existing (p, slot)) write.offset write.data.length = write.data := by
    rw [image]
    exact fun write member => slice_mbrEntryWrites write member
  rw [← image] at front back
  have status := read ⟨0, [if active then statusActive else 0x00]⟩ (by simp [mbrEntryWrites])
  have type := read ⟨MbrLayout.typeByte, [typeByte]⟩ (by simp [mbrEntryWrites])
  have first := read ⟨MbrLayout.startLba, u32Bytes (p.start / sectorSize).toUInt32⟩
    (by simp [mbrEntryWrites])
  have sectors := read ⟨MbrLayout.sectorCount, u32Bytes (p.length / sectorSize).toUInt32⟩
    (by simp [mbrEntryWrites])
  simp only [length_u32Bytes, List.length_singleton] at status type first sectors
  have whole := slice_full (mbrImage existing (p, slot))
  rw [length_mbrImage] at whole
  -- the six fields of the entry, side by side
  have pieces := slice_append_slice (mbrImage existing (p, slot))
  calc mbrImage existing (p, slot)
      = slice (mbrImage existing (p, slot)) 0 16 := whole.symm
    _ = slice (mbrImage existing (p, slot)) 0 1 ++ slice (mbrImage existing (p, slot)) 1 3 ++
          slice (mbrImage existing (p, slot)) 4 1 ++ slice (mbrImage existing (p, slot)) 5 3 ++
          slice (mbrImage existing (p, slot)) 8 4 ++
          slice (mbrImage existing (p, slot)) 12 4 := by
        rw [pieces 0 1 3, pieces 0 4 1, pieces 0 5 3, pieces 0 8 4, pieces 0 12 4]
    _ = mbrEntryBytes old p typeByte active := by
        have statusAt : slice (mbrImage existing (p, slot)) 0 1 =
            [if active then 0x80 else 0x00] := status
        have typeAt : slice (mbrImage existing (p, slot)) 4 1 = [typeByte] := type
        have firstAt : slice (mbrImage existing (p, slot)) 8 4 =
            encode 4 (p.start.toNat / 512) := by
          rw [← start]
          exact first
        have sectorsAt : slice (mbrImage existing (p, slot)) 12 4 =
            encode 4 (p.length.toNat / 512) := by
          rw [← count]
          exact sectors
        rw [statusAt, front, typeAt, back, firstAt, sectorsAt, mbrEntryBytes]

end Entries

/-! ## The whole table -/

/-- A disk that holds exactly the table it was given, `slots` naming the partitions' slots, and
is otherwise as it was. -/
structure HoldsTable (before after : List UInt8) (partitions : List Partition)
    (reserved : List ReservedEntry) (slots : List UInt32) : Prop where
  length : after.length = before.length
  boot : slice after 0 446 = slice before 0 446
  signature : slice after 510 2 = [0x55, 0xAA]
  rest : after.drop 512 = before.drop 512
  length_slots : slots.length = partitions.length
  preserved : ∀ r ∈ reserved, slice after (MbrLayout.entryAt r.slot.toNat) 16 = r.entry.bytes
  seated : ∀ seat ∈ partitions.zip slots, ∃ typeByte active,
    seat.1.kind = .mbr typeByte active ∧
      seat.1.start.toNat % 512 = 0 ∧ seat.1.start.toNat / 512 < 2 ^ 32 ∧
      seat.1.length.toNat % 512 = 0 ∧ seat.1.length.toNat / 512 < 2 ^ 32 ∧
      slice after (MbrLayout.entryAt seat.2.toNat) 16 =
        mbrEntryBytes (slice before (MbrLayout.entryAt seat.2.toNat) 16) seat.1 typeByte active
  distinct : (slots ++ reserved.map ReservedEntry.slot).Nodup
  cleared : ∀ i < MbrLayout.entryCount,
    (∀ slot ∈ slots ++ reserved.map ReservedEntry.slot, slot.toNat ≠ i) →
      slice after (MbrLayout.entryAt i) 16 = List.replicate 16 0
  spans : ∀ p ∈ partitions, p.sectorSpan = .ok p.span
  apart : (partitions.map Partition.span ++ reserved.filterMap ReservedEntry.span).Pairwise
    fun a b => ¬ SharesSector a b

section Commits

variable {dev : ByteDevice} {partitions : List Partition} {reserved : List ReservedEntry}
  {plan : MbrPlan} (accepted : plan.Accepted dev partitions reserved)

include accepted

/-- An entry of the sector an accepted plan writes. -/
theorem slice_sector_entry {i : Nat} (bound : i < MbrLayout.entryCount) :
    slice plan.sector (MbrLayout.entryAt i) 16 =
      tableBlock (slice dev.bytes 0 512) reserved (partitions.zip plan.slots) i := by
  have widths := length_tableBlock (slice dev.bytes 0 512) reserved (partitions.zip plan.slots)
  have read : slice plan.sector (MbrLayout.entryAt i + 0) 16 = slice (tableBlock
      (slice dev.bytes 0 512) reserved (partitions.zip plan.slots) i) 0 16 := by
    rw [accepted.sector_eq]
    exact slice_mbrSector (length_boot accepted) widths bound (by decide)
  have whole := slice_full (tableBlock (slice dev.bytes 0 512) reserved
    (partitions.zip plan.slots) i)
  rw [widths i bound] at whole
  exact read.trans whole

/-- An entry of the disk an accepted plan leaves. -/
theorem slice_committed_entry {i : Nat} (bound : i < MbrLayout.entryCount) :
    slice (plan.committed accepted).bytes (MbrLayout.entryAt i) 16 =
      tableBlock (slice dev.bytes 0 512) reserved (partitions.zip plan.slots) i := by
  have within : MbrLayout.entryAt i + 16 ≤ 512 := by
    unfold MbrLayout.entryCount at bound
    unfold MbrLayout.entryAt MbrLayout.tableStart MbrLayout.entrySize
    omega
  have inner : slice (slice (plan.committed accepted).bytes 0 512) (MbrLayout.entryAt i) 16 =
      slice (plan.committed accepted).bytes (0 + MbrLayout.entryAt i) 16 := slice_slice within
  rw [Nat.zero_add] at inner
  rw [← inner, slice_mbrCommitted_sector accepted, slice_sector_entry accepted bound]

end Commits

/-- A call that succeeds has carried out its plan. -/
theorem planned_of_writeMbr {dev after : ByteDevice} {partitions : List Partition}
    {reserved : List ReservedEntry} {slots : List UInt32}
    (written : (writeMbrAssigningSlots partitions reserved).exec dev = (.ok slots, after)) :
    ∃ plan, ∃ planned : mbrPlan dev partitions reserved = .ok plan,
      plan.slots = slots ∧ after = plan.committed (mbrPlan_eq_ok planned) := by
  obtain ⟨plan, planned⟩ : ∃ plan, mbrPlan dev partitions reserved = .ok plan := by
    cases planned : mbrPlan dev partitions reserved with
    | error error =>
        rw [(planned_writeMbrAssigningSlots dev partitions reserved).refused planned] at written
        cases written
    | ok plan => exact ⟨plan, rfl⟩
  rw [writeMbr_of_plan planned] at written
  cases written
  exact ⟨plan, planned, rfl, rfl⟩

/-- The slots of an accepted plan and of the reserved entries are all different. -/
theorem distinct_of_mbrPlan {dev : ByteDevice} {partitions : List Partition}
    {reserved : List ReservedEntry} {plan : MbrPlan}
    (planned : mbrPlan dev partitions reserved = .ok plan) :
    (plan.slots ++ reserved.map ReservedEntry.slot).Nodup :=
  (assignSlotsWithTaken_eq_ok (slots_of_mbrPlan planned)).2.1

/-- A commit that succeeds writes exactly the table it was given. -/
theorem writeMbr_holdsTable {dev after : ByteDevice} {partitions : List Partition}
    {reserved : List ReservedEntry} {slots : List UInt32}
    (written : (writeMbrAssigningSlots partitions reserved).exec dev = (.ok slots, after)) :
    HoldsTable dev.bytes after.bytes partitions reserved slots := by
  obtain ⟨plan, planned, rfl, rfl⟩ := planned_of_writeMbr written
  have accepted := mbrPlan_eq_ok planned
  have large := accepted.large
  have seating := accepted.seating
  have inTable : ∀ i < MbrLayout.entryCount, MbrLayout.entryAt i + 16 ≤ 512 := by
    intro i bound
    unfold MbrLayout.entryCount at bound
    unfold MbrLayout.entryAt MbrLayout.tableStart MbrLayout.entrySize
    omega
  have sector : ∀ start len, start + len ≤ 512 →
      slice (plan.committed accepted).bytes start len = slice plan.sector start len := by
    intro start len within
    have inner : slice (slice (plan.committed accepted).bytes 0 512) start len =
        slice (plan.committed accepted).bytes (0 + start) len := slice_slice within
    rw [Nat.zero_add, slice_mbrCommitted_sector accepted] at inner
    exact inner.symm
  have bootLength := length_boot accepted
  have headLength : (slice dev.bytes 0 MbrLayout.tableStart ++ blocks (tableBlock
      (slice dev.bytes 0 512) reserved (partitions.zip plan.slots))
        MbrLayout.entryCount).length = 510 := by
    rw [List.length_append, bootLength, length_entries (length_tableBlock _ _ _)]
    rfl
  have fitsOf : ∀ seat ∈ partitions.zip plan.slots, seat.1.FitsMbr dev.bytes.length :=
    fun seat member => accepted.fits seat.1 (List.of_mem_zip member).1
  refine ⟨length_mbrCommitted accepted, ?_, ?_, ?_, accepted.length_slots, ?_, ?_,
    distinct_of_mbrPlan planned, ?_, ?_, apart_of_mbrPlan planned⟩
  · have full := slice_full (slice dev.bytes 0 MbrLayout.tableStart)
    rw [bootLength] at full
    have boot : 0 + MbrLayout.tableStart ≤ (slice dev.bytes 0 MbrLayout.tableStart).length := by
      rw [bootLength, Nat.zero_add]
    rw [sector 0 446 (by decide), accepted.sector_eq, mbrSector, List.append_assoc]
    exact (slice_append_left boot).trans full
  · rw [sector 510 2 (by decide), accepted.sector_eq, mbrSector,
      slice_append_right (Nat.le_of_eq headLength), headLength]
    rfl
  · have past := @slice_mbrCommitted_rest dev partitions reserved plan accepted 512
      (dev.bytes.length - 512) (Nat.le_refl _)
    have all : ∀ bytes : List UInt8, bytes.length = dev.bytes.length →
        slice bytes 512 (dev.bytes.length - 512) = bytes.drop 512 := by
      intro bytes width
      rw [slice, List.take_of_length_le (by rw [List.length_drop]; omega)]
    rwa [all _ (length_mbrCommitted accepted), all _ rfl] at past
  · intro r member
    have bound := seating.reserved_bounded r member
    have unseated : itemAt seatIndex (partitions.zip plan.slots) (reservedIndex r) = none :=
      itemAt_eq_none.mpr fun seat present same => seating.apart seat present r member same.symm
    refine (slice_committed_entry accepted bound).trans ?_
    rw [tableBlock, unseated]
    exact keptBlock_of_mem seating.reserved_distinct member
  · intro seat member
    have fits := fitsOf seat member
    have bound := seating.bounded seat member
    obtain ⟨typeByte, active, kind⟩ := fits.kind
    refine ⟨typeByte, active, kind, fits.start_aligned, fits.first_lt, fits.length_aligned,
      fits.sectors_lt, (slice_committed_entry accepted bound).trans ?_⟩
    have within : MbrLayout.entryAt seat.2.toNat + 16 ≤ 512 := inTable _ bound
    have inside : MbrLayout.entryAt seat.2.toNat + 16 ≤ (slice dev.bytes 0 512).length := by
      rw [length_slice (by omega)]
      exact within
    have old : slice (slice dev.bytes 0 512) (MbrLayout.entryAt seat.2.toNat) 16 =
        slice dev.bytes (MbrLayout.entryAt seat.2.toNat) 16 := by
      rw [slice_slice within, Nat.zero_add]
    have seated := itemAt_of_mem seating.distinct member
    rw [tableBlock, seated, ← old]
    exact mbrImage_eq fits kind inside
  · intro i bound free
    have unseated : itemAt seatIndex (partitions.zip plan.slots) i = none :=
      itemAt_eq_none.mpr fun seat present =>
        free seat.2 (List.mem_append_left _ (List.of_mem_zip present).2)
    have unkept : itemAt reservedIndex reserved i = none :=
      itemAt_eq_none.mpr fun r present =>
        free r.slot (List.mem_append_right _ (List.mem_map_of_mem present))
    refine (slice_committed_entry accepted bound).trans ?_
    rw [tableBlock, unseated, keptBlock, unkept]
    rfl
  · intro p member
    have fits := accepted.fits p member
    have bounded := dev.length_lt
    have inside := fits.end_le
    exact (Partition.sectorSpan_eq_span fits.length_pos (by omega)).1

/-- A Linux volume over the sectors 1 and 2, beside a container in slot 2. -/
theorem mbrPlan_beside_container :
    (mbrPlan eightSectors oneVolumeSet.partitions [⟨2, typedEntry MbrTypes.extendedLba⟩]).map
      MbrPlan.slots = .ok [0] := by
  decide +kernel

/-- The volume goes into slot 0 and the container stays in slot 2. -/
theorem writeMbr_holdsTable_container :
    ∃ after, (writeMbrAssigningSlots oneVolumeSet.partitions
        [⟨2, typedEntry MbrTypes.extendedLba⟩]).exec eightSectors = (.ok [0], after) ∧
      HoldsTable eightSectors.bytes after.bytes oneVolumeSet.partitions
        [⟨2, typedEntry MbrTypes.extendedLba⟩] [0] := by
  have slots := mbrPlan_beside_container
  obtain ⟨plan, planned⟩ : ∃ plan, mbrPlan eightSectors oneVolumeSet.partitions
      [⟨2, typedEntry MbrTypes.extendedLba⟩] = .ok plan := by
    cases planned : mbrPlan eightSectors oneVolumeSet.partitions
        [⟨2, typedEntry MbrTypes.extendedLba⟩] with
    | error error =>
        rw [planned] at slots
        cases slots
    | ok plan => exact ⟨plan, rfl⟩
  rw [planned] at slots
  have written := writeMbr_of_plan planned
  rw [Except.ok.inj slots] at written
  exact ⟨_, written, writeMbr_holdsTable written⟩

end DiskPartitions
