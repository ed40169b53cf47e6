import DiskPartitions.GptCommit
import DiskPartitions.MbrCommit

/-!
# What both writers accept

New partitions that fit the table, are few enough and keep apart pass every
check of the writer of their table.
-/

namespace DiskPartitions

open Slices CheckedWords Refusals

/-- A partition with a length that stays inside the word has the span it reports. -/
theorem Partition.sectorSpan_eq_span {p : Partition} (positive : 0 < p.length.toNat)
    (bounded : p.start.toNat + p.length.toNat < 2 ^ 64) :
    p.sectorSpan = .ok p.span ∧ p.span.1.toNat = p.start.toNat / 512 ∧
      p.span.2.toNat = (p.start.toNat + p.length.toNat - 1) / 512 := by
  obtain ⟨first, last, computed, firstEq, lastEq⟩ :=
    Partition.exists_sectorSpan positive bounded
  rw [Partition.span_of_ok computed]
  exact ⟨computed, firstEq, lastEq⟩

/-! ## The MBR writer's overlap check -/

theorem spanLe_total : Std.Total SpanLe where
  total a b := by
    simp only [SpanLe, UInt64.lt_iff_toNat_lt, UInt64.le_iff_toNat_le, ← UInt64.toNat_inj]
    omega

theorem spanLe_trans : IsTrans (UInt64 × UInt64) SpanLe where
  trans a b c := by
    simp only [SpanLe, UInt64.lt_iff_toNat_lt, UInt64.le_iff_toNat_le, ← UInt64.toNat_inj]
    omega

theorem neighboursOverlap_eq_false {spans : List (UInt64 × UInt64)}
    (ordered : ∀ span ∈ spans, span.1 ≤ span.2)
    (apart : spans.Pairwise fun a b => ¬ SharesSector a b) (sorted : spans.Pairwise SpanLe) :
    neighboursOverlap spans = false := by
  induction spans with
  | nil => rfl
  | cons first spans ih =>
      cases spans with
      | nil => rfl
      | cons second rest =>
          rw [List.pairwise_cons] at apart sorted
          have clear := apart.1 second (by simp)
          have before := sorted.1 second (by simp)
          have secondOrdered := ordered second (by simp)
          have gap : ¬ second.1 ≤ first.2 := by
            intro meets
            apply clear
            simp only [SpanLe, SharesSector, UInt64.lt_iff_toNat_lt, UInt64.le_iff_toNat_le,
              ← UInt64.toNat_inj] at *
            omega
          rw [neighboursOverlap, ih (fun span member => ordered span (by simp [member])) apart.2
            sorted.2]
          simpa using gap

/-- Spans that keep apart pass the check, in whatever order they come. -/
theorem neighboursOverlap_sorted {spans : List (UInt64 × UInt64)}
    (ordered : ∀ span ∈ spans, span.1 ≤ span.2)
    (apart : spans.Pairwise fun a b => ¬ SharesSector a b) :
    neighboursOverlap (spans.insertionSort SpanLe) = false := by
  have := spanLe_total
  have := spanLe_trans
  have permuted : (spans.insertionSort SpanLe).Perm spans := List.perm_insertionSort _ _
  refine neighboursOverlap_eq_false (fun span member => ordered span (permuted.mem_iff.mp member))
    ?_ (List.pairwise_insertionSort _ _)
  exact (permuted.pairwise_iff fun unshared shared => unshared shared.symm).mpr apart

/-- The GPT writer's plan for partitions that fit and keep apart, once everybody has a slot
and LBA 0 is merged. -/
theorem gptPlan_of_fits {dev : ByteDevice} {partitions : List Partition} {g : GptGeometry}
    {usable : UInt64 × UInt64} {tails : EntryTails} {lba0 : List ReservedEntry}
    {slots : List UInt32} {sector : List UInt8} (writable : dev.writable = true)
    (range : g.usableRange (dev.sizeBytes / sectorSize) = .ok usable)
    (few : partitions.length ≤ g.numEntries.toNat)
    (fits : ∀ p ∈ partitions, p.FitsGpt usable)
    (named : ∀ p ∈ partitions, ∃ uuid, p.uuid = some uuid)
    (apart : (partitions.map Partition.span).Pairwise fun a b => ¬ SharesSector a b)
    (assigned : assignSlots partitions g.numEntries = .ok slots)
    (merged : plannedLba0 dev partitions lba0 = .ok sector) :
    gptPlan dev partitions g tails lba0 = .ok ⟨usable, partitions.map Partition.span, slots,
      seatedArray g tails (partitions.zip slots), sector⟩ := by
  have validated : partitions.mapM (validatedSpan usable.1 usable.2) =
      .ok (partitions.map Partition.span) :=
    mapM_of_forall fun p member => validatedSpan_of_fits (fits p member)
  have clear : ¬ (markOverlaps (partitions.map Partition.span)).any id = true := by
    rw [markOverlaps_of_pairwise (fun span member => ?_) apart]
    · simp
    · obtain ⟨p, present, rfl⟩ := List.mem_map.mp member
      exact span_ordered_of_fits (fits p present)
  obtain ⟨lengthSlots, nodup, inTable, _⟩ := assignSlotsWithTaken_eq_ok assigned
  rw [List.append_nil] at nodup inTable
  have indices : (partitions.zip slots).map seatIndex = slots.map UInt32.toNat := by
    conv_rhs => rw [← List.map_snd_zip (Nat.le_of_eq lengthSlots), List.map_map]
    rfl
  have shaped := (GptGeometry.usableRange_eq_ok range).wellShaped
  have records : ∀ seat ∈ partitions.zip slots, ∃ r, seat.1.entryRecord = .ok r := by
    intro seat member
    have own := (List.of_mem_zip member).1
    obtain ⟨typeGuid, attributes, kind, _⟩ := (fits seat.1 own).kind
    obtain ⟨uuid, uuidEq⟩ := named seat.1 own
    have spanned := Partition.sectorSpan_eq_span (fits seat.1 own).length_pos
      (fits seat.1 own).bounded
    exact ⟨⟨typeGuid, uuid, seat.1.span.1, seat.1.span.2, attributes, seat.1.label⟩,
      entryRecord_eq_ok.mpr ⟨kind, uuidEq, spanned.1, rfl⟩⟩
  have distinct : ((partitions.zip slots).map seatIndex).Nodup := by
    rw [indices]
    exact nodup.map fun a b same => UInt32.toNat_inj.mp same
  have built : buildEntryArray g tails (partitions.zip slots) =
      .ok (seatedArray g tails (partitions.zip slots)) :=
    buildEntryArray_eq shaped.size_ge distinct
      (fun seat member => inTable seat.2 (List.of_mem_zip member).2) records
  have room : ¬ g.numEntries.toNat < partitions.length := by omega
  unfold gptPlan
  rw [refuseIf_of_not (by simp [writable]), ok_bind, range, ok_bind, refuseIf_of_not room,
    ok_bind, validated, ok_bind, refuseIf_of_not clear, ok_bind, assigned, ok_bind, built,
    ok_bind, merged, ok_bind, pure_eq_ok]

/-! ## New partitions -/

section Accepted

variable {dev : ByteDevice} {partitions : List Partition} (writable : dev.writable = true)
  (fresh : ∀ p ∈ partitions, p.slot = none)
  (apart : (partitions.map Partition.span).Pairwise fun a b => ¬ SharesSector a b)

include writable fresh apart

/-- What the MBR writer accepts. -/
theorem exists_mbrPlan (large : 512 ≤ dev.bytes.length)
    (few : partitions.length ≤ MbrLayout.entryCount)
    (fits : ∀ p ∈ partitions, p.FitsMbr dev.bytes.length) :
    ∃ plan, mbrPlan dev partitions [] = .ok plan := by
  have lengthLt := dev.length_lt
  have spanned : ∀ p ∈ partitions, p.sectorSpan = .ok p.span ∧
      p.span.1.toNat = p.start.toNat / 512 ∧
      p.span.2.toNat = (p.start.toNat + p.length.toNat - 1) / 512 := fun p member =>
    Partition.sectorSpan_eq_span (fits p member).length_pos
      (Nat.lt_of_le_of_lt (fits p member).end_le lengthLt)
  have validated : partitions.mapM (validatedMbrSpan dev.sizeBytes) =
      .ok (partitions.map Partition.span) := by
    refine mapM_of_forall fun p member => ?_
    have valid : validateMbrPartition p dev.sizeBytes = .ok () :=
      validateMbrPartition_eq_ok.mpr (by
        rw [ByteDevice.toNat_sizeBytes]
        exact fits p member)
    rw [validatedMbrSpan, valid, ok_bind, (spanned p member).1]
  have clear : ¬ neighboursOverlap ((partitions.map Partition.span ++
      ([] : List ReservedEntry).filterMap ReservedEntry.span).insertionSort SpanLe) = true := by
    rw [List.filterMap_nil, List.append_nil, Bool.not_eq_true]
    refine neighboursOverlap_sorted (fun span member => ?_) apart
    obtain ⟨p, present, rfl⟩ := List.mem_map.mp member
    rw [UInt64.le_iff_toNat_le, (spanned p present).2.1, (spanned p present).2.2]
    have positive := (fits p present).length_pos
    omega
  obtain ⟨slots, assigned⟩ : ∃ slots, assignSlotsWithTaken partitions
      (UInt32.ofNat MbrLayout.entryCount) (([] : List ReservedEntry).map ReservedEntry.slot) =
      .ok slots := assignSlots_fresh fresh few
  have seating := seating_of_assignSlots assigned fun p member => (fits p member).kind
  obtain ⟨sector, built⟩ : ∃ sector,
      buildMbr (slice dev.bytes 0 512) [] (partitions.zip slots) = .ok sector :=
    ⟨_, buildMbr_eq (length_slice (by omega)) seating⟩
  have read : (dev.readAt 0 512).mapError Error.block = .ok (slice dev.bytes 0 512) := by
    rw [ByteDevice.readAt_of_le (by omega)]
    rfl
  have enough : ¬ dev.sizeBytes < sectorSize := by
    rw [UInt64.lt_iff_toNat_lt, ByteDevice.toNat_sizeBytes, toNat_sectorSize]
    omega
  have notFull : ¬ MbrLayout.entryCount < partitions.length + ([] : List ReservedEntry).length := by
    rw [List.length_nil]
    omega
  refine ⟨⟨slots, sector⟩, ?_⟩
  unfold mbrPlan
  rw [refuseIf_of_not (by simp [writable]), ok_bind, refuseIf_of_not notFull, ok_bind,
    refuseIf_of_not enough, ok_bind, validated, ok_bind, refuseIf_of_not clear,
    ok_bind, assigned, ok_bind, read, ok_bind, built, ok_bind, pure_eq_ok]

/-- What the GPT writer accepts for a new table. -/
theorem exists_gptPlan {g : GptGeometry} {usable : UInt64 × UInt64} (tails : EntryTails)
    (range : g.usableRange (dev.sizeBytes / sectorSize) = .ok usable)
    (few : partitions.length ≤ g.numEntries.toNat)
    (fits : ∀ p ∈ partitions, p.FitsGpt usable)
    (named : ∀ p ∈ partitions, ∃ uuid, p.uuid = some uuid) :
    ∃ plan, gptPlan dev partitions g tails [] = .ok plan := by
  obtain ⟨slots, assigned⟩ := assignSlots_fresh fresh few
  exact ⟨_, gptPlan_of_fits writable range few fits named apart assigned rfl⟩

end Accepted

end DiskPartitions
