import DiskPartitions.HybridSectors
import Mathlib.Data.List.Find

/-!
# What a merged boot sector keeps

The boot sector of a GPT commit is refused for want of a slot and for nothing else but a slot
that is not one of the four.  Otherwise it holds the boot code of the sector on the disk, one
`0xEE` marker in a known slot, and every remembered entry that still describes something.
-/

namespace DiskPartitions

open Slices LittleEndian CheckedWords Refusals KeyOrder

/-- An entry, not a marker, that still describes something: anything but a volume whose range
no partition has. -/
def ReservedEntry.Kept (partitions : List Partition) (e : ReservedEntry) : Prop :=
  ¬ e.IsMarker ∧ ¬ IsLostMirror partitions e.entry.bytes

/-- No entry that is kept sits in the slot. -/
def FreeSlot (partitions : List Partition) (lba0 : List ReservedEntry) (i : Nat) : Prop :=
  ∀ e ∈ lba0, e.Kept partitions → reservedIndex e ≠ i

/-- The slot of the marker: the first listed marker's, else the lowest free one. -/
def MarkerSlot (partitions : List Partition) (lba0 : List ReservedEntry) (k : Nat) : Prop :=
  match firstMarker lba0 with
  | some m => k = reservedIndex m
  | none => FreeSlot partitions lba0 k ∧ ∀ j < k, ¬ FreeSlot partitions lba0 j

/-- The marker a merge leaves: the listed one beside other entries, else the one it was
given. -/
def markerEntry (current : List UInt8) (lba0 : List ReservedEntry) (protective : Bytes16) :
    Bytes16 :=
  match firstMarker lba0 with
  | some m => if isProtective current then protective else m.entry
  | none => protective

/-- A boot sector that keeps everything it should and one marker. -/
structure KeepsEntries (current : List UInt8) (lba0 : List ReservedEntry) (protective : Bytes16)
    (partitions : List Partition) (sector : List UInt8) (k : Nat) : Prop where
  length : sector.length = 512
  boot : slice sector 0 446 = slice current 0 446
  signature : slice sector 510 2 = [0x55, 0xAA]
  place : k < MbrLayout.entryCount
  slot : MarkerSlot partitions lba0 k
  marker : slice sector (MbrLayout.entryAt k) 16 = (markerEntry current lba0 protective).bytes
  marked : typeByteAt sector k = MbrTypes.gptProtective
  single : ∀ i < MbrLayout.entryCount, i ≠ k → typeByteAt sector i ≠ MbrTypes.gptProtective
  kept : ∀ e ∈ lba0, e.Kept partitions →
    slice sector (MbrLayout.entryAt (reservedIndex e)) 16 = e.entry.bytes
  cleared : ∀ i < MbrLayout.entryCount, i ≠ k → FreeSlot partitions lba0 i →
    slice sector (MbrLayout.entryAt i) 16 = List.replicate 16 0

section Blocks

variable {rebuild : Bool} {partitions : List Partition} {lba0 : List ReservedEntry}
  {current : List UInt8} {protective : Bytes16} {k : Nat}

/-- The entries other than markers that the writer's loop puts back. -/
theorem mem_keptFrom_of_kept {e : ReservedEntry} (kept : e.Kept partitions) :
    e ∈ keptFrom rebuild partitions false lba0 ↔ e ∈ lba0 := by
  rw [mem_keptFrom, if_neg kept.1]
  exact and_iff_left kept.2

/-- A slot other than the first marker's holds the entry kept there. -/
theorem keptBlock_of_kept (legacy : LegacyEntries lba0) {e : ReservedEntry} (member : e ∈ lba0)
    (kept : e.Kept partitions) :
    keptBlock (keptFrom rebuild partitions false lba0) (reservedIndex e) = e.entry.bytes :=
  keptBlock_of_mem (legacy.sublist keptFrom_sublist).distinct
    ((mem_keptFrom_of_kept kept).mpr member)

/-- A free slot other than the first marker's is empty. -/
theorem keptBlock_of_free {i : Nat} (free : FreeSlot partitions lba0 i)
    (apart : ∀ m, firstMarker lba0 = some m → rebuild = false → reservedIndex m ≠ i) :
    keptBlock (keptFrom rebuild partitions false lba0) i = emptyEntry := by
  rcases keptBlock_cases (keptFrom rebuild partitions false lba0) i with
    empty | ⟨e, present, index, _⟩
  · exact empty
  · obtain ⟨listed, rule⟩ := mem_keptFrom.mp present
    split at rule
    next mark => exact absurd index (apart e rule.2.2 rule.2.1)
    next mark => exact absurd index (free e listed ⟨mark, rule⟩)

/-- Without a marker a slot is unused exactly when no entry is kept in it. -/
theorem unused_iff_free (legacy : LegacyEntries lba0) (absent : firstMarker lba0 = none)
    (i : Nat) :
    byteAt (keptBlock (keptFrom rebuild partitions false lba0) i) MbrLayout.typeByte =
      MbrTypes.empty ↔ FreeSlot partitions lba0 i := by
  constructor
  · rintro unused e member kept rfl
    rw [keptBlock_of_kept legacy member kept] at unused
    exact legacy.used e member unused
  · intro free
    have apart : ∀ m, firstMarker lba0 = some m → rebuild = false → reservedIndex m ≠ i := by
      intro m marker
      rw [absent] at marker
      cases marker
    rw [keptBlock_of_free free apart]
    exact typeByte_emptyEntry

end Blocks

section Merging

variable {current : List UInt8} {lba0 : List ReservedEntry} {protective : Bytes16}
  {partitions : List Partition} (width : current.length = 512) (legacy : LegacyEntries lba0)

include width legacy

/-- Without a marker the given one goes into the lowest free slot, and there is no merge
when there is none. -/
theorem hybridLba0_of_absent (absent : firstMarker lba0 = none) :
    hybridLba0 current lba0 protective partitions =
      match (List.range MbrLayout.entryCount).find? fun i =>
          byteAt (keptBlock (keptFrom (isProtective current) partitions false lba0) i)
            MbrLayout.typeByte == MbrTypes.empty with
      | none => .error (.invalid "LBA 0 has no protective entry and no free slot for one")
      | some k => .ok (mbrSector (slice current 0 MbrLayout.tableStart)
          (Function.update (keptBlock (keptFrom (isProtective current) partitions false lba0)) k
            protective.bytes) [0x55, 0xAA]) := by
  have bootLength := length_current_boot width
  have types : (List.range MbrLayout.entryCount).find? (fun i =>
      typeByteAt (mbrSector (slice current 0 MbrLayout.tableStart)
        (keptBlock (keptFrom (isProtective current) partitions false lba0)) [0, 0]) i ==
          MbrTypes.empty) = (List.range MbrLayout.entryCount).find? fun i =>
      byteAt (keptBlock (keptFrom (isProtective current) partitions false lba0) i)
        MbrLayout.typeByte == MbrTypes.empty := by
    apply List.find?_congr
    intro i member
    rw [typeByteAt_mbrSector bootLength (length_keptBlock _) (List.mem_range.mp member)]
  rw [hybridLba0_eq width legacy, absent]
  simp only [placeProtective, Option.map_none, Option.isSome_none, Bool.and_false,
    Bool.false_eq_true, if_false, Option.none_or, types]
  split
  next free =>
      rw [free]
      rfl
  next k free =>
      have place := List.mem_range.mp (List.mem_of_find?_eq_some free)
      rw [free]
      simp only [orRefuse, ok_bind, pure_eq_ok, Except.map]
      rw [splice_entry bootLength (length_keptBlock _) place protective.length_bytes,
        splice_signature bootLength ((length_keptBlock _).update _ protective.length_bytes) rfl]

/-- What a merged sector holds, when its entries are laid out by slot. -/
theorem keepsEntries_of_block {block : Nat → List UInt8} {k : Nat} (widths : EntryWidths block)
    (place : k < MbrLayout.entryCount) (slot : MarkerSlot partitions lba0 k)
    (marks : byteAt protective.bytes MbrLayout.typeByte = MbrTypes.gptProtective)
    (marker : block k = (markerEntry current lba0 protective).bytes)
    (kept : ∀ e ∈ lba0, e.Kept partitions → block (reservedIndex e) = e.entry.bytes)
    (cleared : ∀ i < MbrLayout.entryCount, i ≠ k → FreeSlot partitions lba0 i →
      block i = emptyEntry) :
    KeepsEntries current lba0 protective partitions
      (mbrSector (slice current 0 MbrLayout.tableStart) block [0x55, 0xAA]) k := by
  have bootLength := length_current_boot width
  have headLength : (slice current 0 MbrLayout.tableStart ++
      blocks block MbrLayout.entryCount).length = 510 := by
    rw [List.length_append, bootLength, length_entries widths]
    rfl
  have held : ∀ i < MbrLayout.entryCount,
      slice (mbrSector (slice current 0 MbrLayout.tableStart) block [0x55, 0xAA])
        (MbrLayout.entryAt i) 16 = block i := by
    intro i bound
    have read : slice (mbrSector (slice current 0 MbrLayout.tableStart) block [0x55, 0xAA])
        (MbrLayout.entryAt i + 0) 16 = slice (block i) 0 16 :=
      slice_mbrSector bootLength widths bound (by decide)
    have whole : slice (block i) 0 16 = block i := by
      have full := slice_full (block i)
      rwa [widths i bound] at full
    rw [whole] at read
    exact read
  have types : ∀ i < MbrLayout.entryCount,
      typeByteAt (mbrSector (slice current 0 MbrLayout.tableStart) block [0x55, 0xAA]) i =
        byteAt (block i) MbrLayout.typeByte :=
    fun i bound => typeByteAt_mbrSector bootLength widths bound
  have markerMarks : byteAt (markerEntry current lba0 protective).bytes MbrLayout.typeByte =
      MbrTypes.gptProtective := by
    unfold markerEntry
    split
    next m first =>
        split
        next => exact marks
        next => exact isMarker_of_firstMarker first
    next => exact marks
  refine ⟨?_, ?_, ?_, place, slot, ?_, ?_, ?_, ?_, ?_⟩
  · rw [mbrSector, List.length_append, headLength]
    rfl
  · have full := slice_full (slice current 0 MbrLayout.tableStart)
    rw [bootLength] at full
    have boot : 0 + MbrLayout.tableStart ≤ (slice current 0 MbrLayout.tableStart).length := by
      rw [bootLength, Nat.zero_add]
    rw [mbrSector, List.append_assoc]
    exact (slice_append_left boot).trans full
  · rw [mbrSector, slice_append_right (Nat.le_of_eq headLength), headLength]
    rfl
  · rw [held k place, marker]
  · rw [types k place, marker, markerMarks]
  · intro i bound other
    rw [types i bound]
    by_cases free : FreeSlot partitions lba0 i
    · rw [cleared i bound other free, typeByte_emptyEntry]
      decide
    · unfold FreeSlot at free
      push Not at free
      obtain ⟨e, member, keeps, rfl⟩ := free
      rw [kept e member keeps]
      exact keeps.1
  · intro e member keeps
    rw [held _ (legacy.bounded e member), kept e member keeps]
  · intro i bound other free
    rw [held i bound, cleared i bound other free]
    rfl

/-- A merge that is not refused for a slot fails exactly for want of one, and otherwise keeps
every entry it should. -/
theorem hybridLba0_of_legacy
    (marks : byteAt protective.bytes MbrLayout.typeByte = MbrTypes.gptProtective) :
    ((∃ error, hybridLba0 current lba0 protective partitions = .error error) ↔
      firstMarker lba0 = none ∧
        ∀ i < MbrLayout.entryCount, ¬ FreeSlot partitions lba0 i) ∧
      ∀ sector, hybridLba0 current lba0 protective partitions = .ok sector →
        ∃ k, KeepsEntries current lba0 protective partitions sector k := by
  cases marker : firstMarker lba0 with
  | some m =>
      have member := List.mem_of_find?_eq_some marker
      have own := isMarker_of_firstMarker marker
      have bound := legacy.bounded m member
      have slot : MarkerSlot partitions lba0 (reservedIndex m) := by
        unfold MarkerSlot
        rw [marker]
      have apart : ∀ e ∈ lba0, e.Kept partitions → reservedIndex e ≠ reservedIndex m := by
        intro e listed keeps same
        have equal : e = m := List.inj_on_of_nodup_map legacy.distinct listed member same
        exact keeps.1 (equal ▸ own)
      rw [hybridLba0_of_marker width legacy marker]
      refine ⟨by simp, ?_⟩
      intro sector merged
      refine ⟨reservedIndex m, ?_⟩
      rw [← Except.ok.inj merged]
      cases bare : isProtective current with
      | true =>
          refine keepsEntries_of_block width legacy
            ((length_keptBlock _).update _ protective.length_bytes) bound slot marks ?_ ?_ ?_
          · rw [markerEntry, marker]
            simp [bare]
          · intro e listed keeps
            rw [if_pos rfl, Function.update_of_ne (apart e listed keeps)]
            exact keptBlock_of_kept legacy listed keeps
          · intro i place other free
            rw [if_pos rfl, Function.update_of_ne other]
            exact keptBlock_of_free free fun _ _ off => by cases off
      | false =>
          have held : m ∈ keptFrom false partitions false lba0 :=
            mem_keptFrom.mpr ⟨member, by rw [if_pos own]; exact ⟨rfl, rfl, marker⟩⟩
          refine keepsEntries_of_block width legacy (length_keptBlock _) bound slot marks ?_ ?_ ?_
          · rw [markerEntry, marker]
            simp only [bare, Bool.false_eq_true, if_false]
            exact keptBlock_of_mem (legacy.sublist keptFrom_sublist).distinct held
          · intro e listed keeps
            exact keptBlock_of_kept legacy listed keeps
          · intro i place other free
            refine keptBlock_of_free free ?_
            intro first same _
            rw [marker, Option.some.injEq] at same
            exact same ▸ other.symm
  | none =>
      have unused := fun i => @unused_iff_free (isProtective current) partitions lba0 legacy
        marker i
      rw [hybridLba0_of_absent width legacy marker]
      split
      next full =>
          rw [List.find?_range_eq_none] at full
          refine ⟨?_, by simp⟩
          simp only [Except.error.injEq, exists_eq', true_and, true_iff]
          intro i place free
          have used := full i place
          simp [(unused i).mpr free] at used
      next k found =>
          rw [List.find?_range_eq_some, List.mem_range, beq_iff_eq, unused] at found
          obtain ⟨free, place, lower⟩ := found
          constructor
          · simp only [reduceCtorEq, exists_false, true_and, false_iff]
            intro taken
            exact taken k place free
          · intro sector merged
            refine ⟨k, ?_⟩
            rw [← Except.ok.inj merged]
            refine keepsEntries_of_block width legacy
              ((length_keptBlock _).update _ protective.length_bytes) place ?_ marks ?_ ?_ ?_
            · unfold MarkerSlot
              rw [marker]
              refine ⟨free, ?_⟩
              intro j before vacant
              have used := lower j before
              simp [(unused j).mpr vacant] at used
            · rw [Function.update_self, markerEntry, marker]
            · intro e listed keeps
              rw [Function.update_of_ne (free e listed keeps)]
              exact keptBlock_of_kept legacy listed keeps
            · intro i _ other free
              rw [Function.update_of_ne other]
              refine keptBlock_of_free free ?_
              intro first same
              rw [marker] at same
              cases same

end Merging

/-- A merge is refused exactly for a slot that is not one of the four, or when there is no
marker to replace and an entry is kept in every slot; otherwise the sector keeps everything it
should and exactly one marker. -/
theorem hybridLba0_keeps {current : List UInt8} (width : current.length = 512)
    {lba0 : List ReservedEntry} (used : ∀ e ∈ lba0, e.typeByte ≠ MbrTypes.empty)
    (distinct : (lba0.map ReservedEntry.slot).Nodup) {protective : Bytes16}
    (marks : byteAt protective.bytes MbrLayout.typeByte = MbrTypes.gptProtective)
    (partitions : List Partition) :
    ((∃ error, hybridLba0 current lba0 protective partitions = .error error) ↔
      (∃ e ∈ lba0, 4 ≤ e.slot.toNat) ∨
        (∀ e ∈ lba0, ¬ e.IsMarker) ∧
          ∀ i < 4, ∃ e ∈ lba0, e.Kept partitions ∧ reservedIndex e = i) ∧
      ∀ sector, hybridLba0 current lba0 protective partitions = .ok sector →
        ∃ k, KeepsEntries current lba0 protective partitions sector k := by
  by_cases outside : ∃ e ∈ lba0, 4 ≤ e.slot.toNat
  · have refused : lba0.any (fun entry => MbrLayout.entryCount ≤ entry.slot.toNat) = true := by
      simp only [List.any_eq_true, decide_eq_true_eq]
      exact outside
    have failed : hybridLba0 current lba0 protective partitions =
        .error (.invalid "reserved entry slot past the end of the table") := by
      simp only [hybridLba0, refuseIf, if_pos refused]
      rfl
    rw [failed]
    exact ⟨by simp [outside], by simp⟩
  · have legacy : LegacyEntries lba0 := by
      push Not at outside
      refine ⟨?_, outside, used⟩
      rw [List.Nodup, List.pairwise_map] at distinct ⊢
      exact distinct.imp fun apart same => apart (UInt32.toNat_inj.mp same)
    have absent : firstMarker lba0 = none ↔ ∀ e ∈ lba0, ¬ e.IsMarker := by
      simp [firstMarker]
    have full : (∀ i < MbrLayout.entryCount, ¬ FreeSlot partitions lba0 i) ↔
        ∀ i < 4, ∃ e ∈ lba0, e.Kept partitions ∧ reservedIndex e = i := by
      simp only [FreeSlot, MbrLayout.entryCount]
      push Not
      rfl
    have rest := @hybridLba0_of_legacy current lba0 protective partitions width legacy marks
    rw [absent, full] at rest
    rw [or_iff_right outside]
    exact rest

/-- An entry of one type and nothing else. -/
def typedEntry (typeByte : UInt8) : Bytes16 where
  bytes := List.replicate 4 0 ++ [typeByte] ++ List.replicate 11 0
  length_bytes := by simp

/-- An extended container in slot 0 and a marker in slot 2. -/
def containerAndMarker : List ReservedEntry :=
  [⟨0, typedEntry MbrTypes.extendedLba⟩, ⟨2, typedEntry MbrTypes.gptProtective⟩]

/-- Merging the two over a sector of zeros keeps them. -/
theorem hybridLba0_keeps_container :
    ∃ sector k, hybridLba0 (List.replicate 512 0) containerAndMarker
        (typedEntry MbrTypes.gptProtective) [] = .ok sector ∧
      KeepsEntries (List.replicate 512 0) containerAndMarker
        (typedEntry MbrTypes.gptProtective) [] sector k := by
  obtain ⟨refused, merges⟩ := @hybridLba0_keeps (List.replicate 512 0) List.length_replicate
    containerAndMarker (by decide) (by decide) (typedEntry MbrTypes.gptProtective) (by decide) []
  cases merged : hybridLba0 (List.replicate 512 0) containerAndMarker
      (typedEntry MbrTypes.gptProtective) [] with
  | error error =>
      rcases refused.mp ⟨error, merged⟩ with outside | ⟨absent, _⟩
      · exact absurd outside (by decide)
      · exact absurd (absent _ (List.mem_cons_of_mem _ List.mem_cons_self)) (by decide)
  | ok sector =>
      obtain ⟨k, keeps⟩ := merges sector merged
      exact ⟨sector, k, rfl, keeps⟩

end DiskPartitions
