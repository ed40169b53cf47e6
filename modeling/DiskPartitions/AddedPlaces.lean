import DiskPartitions.FirstFit
import DiskPartitions.SoundEdits

/-!
# Where a partition without a hint goes

The free-space search of `add` is a first fit: it places a partition at the lowest 1 MiB
boundary from which the rounded length stays in the usable range and clear of every partition
and every reserved range, and it refuses exactly when there is no such boundary.
-/

namespace DiskPartitions

open CheckedWords Refusals FallibleState

/-- An LBA on a 1 MiB boundary with `sectors` usable sectors from it that belong to nobody. -/
structure FreePlace (set : PartitionSet) (sectors lba : Nat) : Prop where
  aligned : lba * 512 % 2 ^ 20 = 0
  first_le : set.usableRange.1.toNat ≤ lba
  last_le : lba + sectors ≤ set.usableRange.2.toNat + 1
  partitions : ∀ p ∈ set.partitions, ∀ sector ∈ p.sectors,
    ¬ (lba ≤ sector ∧ sector < lba + sectors)
  reserved : set.tableKind = .mbr → ∀ r ∈ set.reserved, ∀ sector ∈ r.sectors,
    ¬ (lba ≤ sector ∧ sector < lba + sectors)

/-- A span as a pair of numbers. -/
def natSpan (span : UInt64 × UInt64) : Nat × Nat := (span.1.toNat, span.2.toNat)

namespace PartitionSet

/-! ## The walk is the search -/

theorem toNat_alignUp_roundUp {value : UInt64} (small : value.toNat < 2 ^ 60) :
    (alignUp value alignmentSectors).toNat = FirstFit.roundUp 2048 value.toNat :=
  toNat_alignUp_eq small

theorem toNat_max (a b : UInt64) : (max a b).toNat = max a.toNat b.toNat := by
  rw [UInt64.max_def]
  split
  next le => rw [Nat.max_eq_right (UInt64.le_iff_toNat_le.mp le)]
  next greater =>
      rw [Nat.max_eq_left (Nat.le_of_lt (Nat.lt_of_not_le fun le =>
        greater (UInt64.le_iff_toNat_le.mpr le)))]

/-- The walk over the spans answers what the search over the numbers does. -/
theorem walkSpans_eq_search {lengthSectors lastUsable : UInt64}
    (positive : 0 < lengthSectors.toNat) (short : lengthSectors.toNat < 2 ^ 60)
    {spans : List (UInt64 × UInt64)} (bounded : ∀ span ∈ spans, span.2.toNat < 2 ^ 55)
    {cursor : UInt64} (low : cursor.toNat < 2 ^ 60) :
    (walkSpans lengthSectors lastUsable spans cursor).toOption.map UInt64.toNat =
      FirstFit.search 2048 lengthSectors.toNat (lastUsable.toNat + 1) (spans.map natSpan)
        cursor.toNat := by
  have one : (1 : UInt64).toNat = 1 := rfl
  have wanted : ∀ cursor : UInt64, cursor.toNat < 2 ^ 60 →
      (saturatingSub (saturatingAdd cursor lengthSectors) 1).toNat =
        cursor.toNat + lengthSectors.toNat - 1 := by
    intro cursor low
    rw [toNat_saturatingSub, toNat_saturatingAdd, one]
    omega
  induction spans generalizing cursor with
  | nil =>
      have inside : saturatingSub (saturatingAdd cursor lengthSectors) 1 ≤ lastUsable ↔
          cursor.toNat + lengthSectors.toNat ≤ lastUsable.toNat + 1 := by
        rw [UInt64.le_iff_toNat_le, wanted cursor low]
        omega
      rw [walkSpans, List.map_nil, FirstFit.search]
      by_cases fits : saturatingSub (saturatingAdd cursor lengthSectors) 1 ≤ lastUsable
      · rw [if_pos fits, if_pos (inside.mp fits)]
        rfl
      · rw [if_neg fits, if_neg (fun held => fits (inside.mpr held))]
        rfl
  | cons span spans ih =>
      have last := bounded span List.mem_cons_self
      have past : (span.2 + 1).toNat = span.2.toNat + 1 := toNat_add_of_lt (by omega)
      have aligned := toNat_alignUp (by omega : (span.2 + 1).toNat < 2 ^ 60)
      have gap : (saturatingSub (saturatingAdd cursor lengthSectors) 1 < span.1 ∧
          saturatingSub (saturatingAdd cursor lengthSectors) 1 ≤ lastUsable) ↔
          cursor.toNat + lengthSectors.toNat ≤ (natSpan span).1 ∧
            cursor.toNat + lengthSectors.toNat ≤ lastUsable.toNat + 1 := by
        rw [UInt64.lt_iff_toNat_lt, UInt64.le_iff_toNat_le, wanted cursor low, natSpan]
        omega
      have next : (max cursor (alignUp (span.2 + 1) alignmentSectors)).toNat =
          max cursor.toNat (FirstFit.roundUp 2048 ((natSpan span).2 + 1)) := by
        rw [toNat_max, toNat_alignUp_roundUp (by omega), past, natSpan]
      rw [List.map_cons, FirstFit.search, walkSpans]
      by_cases free : saturatingSub (saturatingAdd cursor lengthSectors) 1 < span.1 ∧
          saturatingSub (saturatingAdd cursor lengthSectors) 1 ≤ lastUsable
      · rw [if_pos free, if_pos (gap.mp free)]
        rfl
      · rw [if_neg free, if_neg (fun held => free (gap.mpr held)),
          ih (fun other member => bounded other (List.mem_cons_of_mem _ member))
            (by rw [toNat_max]; omega), next]

section Places

variable {set : PartitionSet} {spans : List (UInt64 × UInt64)}
  (occupied : set.occupiedSpans none = .ok spans)

include occupied

/-- The occupied spans are those of the partitions and, on an MBR, of the reserved entries. -/
theorem mem_occupiedSpans {span : UInt64 × UInt64} :
    span ∈ spans ↔ (∃ p ∈ set.partitions, p.sectorSpan = .ok span) ∨
      set.tableKind = .mbr ∧ ∃ r ∈ set.reserved, r.span = some span := by
  obtain ⟨own, mapped, rest⟩ := bind_eq_ok.mp occupied
  rw [otherPartitions_none] at mapped
  have pairs := mapM_eq_ok mapped
  have listed : span ∈ own ↔ ∃ p ∈ set.partitions, p.sectorSpan = .ok span := by
    constructor
    · intro member
      exact Slices.exists_of_mem_right pairs member
    · rintro ⟨p, member, computed⟩
      obtain ⟨other, present, same⟩ := Slices.exists_of_mem_right pairs.flip member
      rw [computed, Except.ok.injEq] at same
      exact same ▸ present
  cases rest
  by_cases mbr : set.tableKind = .mbr
  · rw [if_pos mbr, List.mem_append, listed, List.mem_filterMap]
    simp [mbr]
  · rw [if_neg mbr, listed]
    simp [mbr]

/-- Free places are the fits among the occupied spans. -/
theorem freePlace_iff {sectors lba : Nat} (positive : 0 < sectors) :
    FreePlace set sectors lba ↔ FirstFit.Fits 2048 sectors set.usableRange.1.toNat
      (set.usableRange.2.toNat + 1) (spans.map natSpan) lba := by
  -- a span with both ends in order is missed on one side or the other
  have missed : ∀ {first last : Nat}, first ≤ last →
      ((∀ sector, first ≤ sector ∧ sector ≤ last → ¬ (lba ≤ sector ∧ sector < lba + sectors)) ↔
        last < lba ∨ lba + sectors ≤ first) := by
    intro first last ordered
    constructor
    · intro clear
      have atFirst := clear first ⟨Nat.le_refl _, ordered⟩
      have atLast := clear last ⟨ordered, Nat.le_refl _⟩
      have atLba := clear lba
      omega
    · rintro side sector inside
      omega
  have aligned : lba * 512 % 2 ^ 20 = 0 ↔ 2048 ∣ lba := by omega
  constructor
  · intro free
    refine ⟨aligned.mp free.aligned, free.first_le, free.last_le, ?_⟩
    intro range member
    obtain ⟨span, present, rfl⟩ := List.mem_map.mp member
    rcases (mem_occupiedSpans occupied).mp present with ⟨p, listed, computed⟩ |
      ⟨mbr, r, listed, claimed⟩
    · obtain ⟨_, _, first, last⟩ := Partition.sectorSpan_eq_ok.mp computed
      have ordered : span.1.toNat ≤ span.2.toNat := by omega
      refine (missed ordered).mp ?_
      intro sector inside
      exact free.partitions p listed sector ((Partition.mem_sectors_of_span computed).mpr inside)
    · obtain ⟨_, first, last⟩ := ReservedEntry.toNat_span claimed
      have ordered : span.1.toNat ≤ span.2.toNat := by omega
      refine (missed ordered).mp ?_
      intro sector inside
      exact free.reserved mbr r listed sector ⟨span, claimed, inside⟩
  · intro fits
    refine ⟨aligned.mpr fits.aligned, fits.first_le, fits.stop_le, ?_, ?_⟩
    · intro p listed sector shared
      obtain ⟨span, present, computed⟩ := sectorSpan_of_occupied occupied
        ((otherPartitions_none set).symm ▸ listed)
      have clear := fits.clear _ (List.mem_map_of_mem present)
      rw [Partition.mem_sectors_of_span computed] at shared
      simp only [natSpan] at clear
      omega
    · rintro mbr r listed sector ⟨span, claimed, inside⟩
      have present := reserved_span_occupied occupied mbr listed claimed
      have clear := fits.clear _ (List.mem_map_of_mem present)
      simp only [natSpan] at clear
      omega

/-- The search finds the lowest free place, and fails exactly when there is none. -/
theorem findFree_spec {lengthSectors : UInt64} (positive : 0 < lengthSectors.toNat)
    (short : lengthSectors.toNat < 2 ^ 60)
    (range : set.usableRange.1.toNat ≤ set.usableRange.2.toNat) :
    (∀ start, set.findFree lengthSectors set.usableRange.1 set.usableRange.2 = .ok start →
      IsLeast { lba | FreePlace set lengthSectors.toNat lba } start.toNat) ∧
      ∀ error, set.findFree lengthSectors set.usableRange.1 set.usableRange.2 = .error error →
        ∀ lba, ¬ FreePlace set lengthSectors.toNat lba := by
  have := spanLe_total
  have := spanLe_trans
  have last := set.usableRange_lt
  have permuted : (spans.insertionSort SpanLe).Perm spans := List.perm_insertionSort _ _
  have sorted : ((spans.insertionSort SpanLe).map natSpan).Pairwise fun a b => a.1 ≤ b.1 := by
    rw [List.pairwise_map]
    apply (List.pairwise_insertionSort SpanLe spans).imp
    intro a b ordered
    unfold SpanLe at ordered
    simp only [UInt64.lt_iff_toNat_lt, UInt64.le_iff_toNat_le, ← UInt64.toNat_inj] at ordered
    simp only [natSpan]
    omega
  have small : set.usableRange.1.toNat < 2 ^ 60 := by omega
  have low : (alignUp set.usableRange.1 alignmentSectors).toNat < 2 ^ 60 := by
    have aligned := toNat_alignUp small
    omega
  have walked := @walkSpans_eq_search lengthSectors set.usableRange.2 positive short
    (spans.insertionSort SpanLe)
    (fun span member => occupiedSpans_lt occupied span (permuted.mem_iff.mp member)) _ low
  have searched := @FirstFit.search_spec 2048 lengthSectors.toNat set.usableRange.1.toNat
    (set.usableRange.2.toNat + 1) (by decide) [] _ _ sorted
    (FirstFit.reached_start (by decide) _)
  rw [← toNat_alignUp_roundUp small, ← walked, List.nil_append] at searched
  have found : set.findFree lengthSectors set.usableRange.1 set.usableRange.2 =
      walkSpans lengthSectors set.usableRange.2 (spans.insertionSort SpanLe)
        (alignUp set.usableRange.1 alignmentSectors) := by
    rw [findFree, occupied]
    rfl
  have places : ∀ lba, FreePlace set lengthSectors.toNat lba ↔
      FirstFit.Fits 2048 lengthSectors.toNat set.usableRange.1.toNat
        (set.usableRange.2.toNat + 1) ((spans.insertionSort SpanLe).map natSpan) lba := by
    intro lba
    rw [freePlace_iff occupied positive]
    exact ⟨fun fits => fits.of_mem_iff fun range => (permuted.map natSpan).mem_iff,
      fun fits => fits.of_mem_iff fun range => (permuted.map natSpan).mem_iff.symm⟩
  rw [found]
  simp only [places]
  constructor
  · intro start walked
    rw [walked] at searched
    exact searched
  · intro error walked
    rw [walked] at searched
    exact searched

end Places

theorem exists_occupiedSpans {set : PartitionSet}
    (computable : ∀ p ∈ set.partitions, ∃ span, p.sectorSpan = .ok span) :
    ∃ spans, set.occupiedSpans none = .ok spans := by
  have mapped : (set.otherPartitions none).mapM Partition.sectorSpan =
      .ok ((set.otherPartitions none).map Partition.span) := by
    apply mapM_of_forall
    intro p member
    rw [otherPartitions_none] at member
    obtain ⟨span, computed⟩ := computable p member
    rw [Partition.span_of_ok computed, computed]
  rw [occupiedSpans, mapped]
  exact ⟨_, rfl⟩

/-- The last usable LBA of an MBR fits an entry's field. -/
theorem usableRange_mbr {set : PartitionSet} (mbr : set.tableKind = .mbr) :
    0 < set.usableRange.1.toNat ∧ set.usableRange.2.toNat ≤ mbrLbaMax.toNat := by
  simp only [usableRange, mbr]
  split
  next => decide
  next =>
      have least : min (set.diskSize / sectorSize - 1) mbrLbaMax ≤ mbrLbaMax := by
        rw [UInt64.min_def]
        split
        next le => exact le
        next => exact UInt64.le_refl _
      exact ⟨Nat.one_pos, UInt64.le_iff_toNat_le.mp least⟩

section Adding

variable {set : PartitionSet} {length : UInt64} {typeId : PartitionTypeId}
  {label : Option String} {drawn : Bytes16}

/-- A set with room takes the place its search finds. -/
theorem place_of_found (mbrRoom : set.tableKind = .mbr →
      set.partitions.length + set.reserved.length < MbrLayout.entryCount)
    (gptRoom : set.tableKind = .gpt → set.partitions.length < set.gptGeometry.numEntries.toNat)
    {spans : List (UInt64 × UInt64)} (occupied : set.occupiedSpans none = .ok spans)
    (nonzero : length ≠ 0) {kind : PartitionKind} (valid : set.newKind typeId = .ok kind)
    (range : set.usableRange.1.toNat ≤ set.usableRange.2.toNat) {start : UInt64}
    (found : set.findFree (alignUp (divCeil length sectorSize) alignmentSectors)
      set.usableRange.1 set.usableRange.2 = .ok start) :
    ∃ p, set.place none length typeId label drawn = .ok p := by
  have positive := sectors_pos nonzero
  have rounded := toNat_requested length
  have bound := length.toNat_lt
  have short : (alignUp (divCeil length sectorSize) alignmentSectors).toNat < 2 ^ 60 := by
    have sectors := toNat_divCeil_sector length
    have aligned := toNat_alignUp (by omega : (divCeil length sectorSize).toNat < 2 ^ 60)
    omega
  have last := set.usableRange_lt
  have free := ((findFree_spec occupied positive short range).1 start found).1
  have fits := (freePlace_iff occupied positive).mp free
  have inside := free.last_le
  have first := free.first_le
  have one : (1 : UInt64).toNat = 1 := rfl
  generalize requested : alignUp (divCeil length sectorSize) alignmentSectors = lengthSectors
    at found positive rounded short free fits inside
  have before : (lengthSectors - 1).toNat = lengthSectors.toNat - 1 := by
    rw [toNat_sub_of_le (by omega), one]
  have stopValue : (start + (lengthSectors - 1)).toNat =
      start.toNat + lengthSectors.toNat - 1 := by
    rw [toNat_add_of_lt (by omega), before]
    omega
  have stop : checkedAdd start (lengthSectors - 1) = some (start + (lengthSectors - 1)) :=
    checkedAdd_eq_some.mpr (by rw [stopValue, before]; omega)
  have mbrFull : ¬ (set.tableKind = .mbr ∧
      MbrLayout.entryCount ≤ set.partitions.length + set.reserved.length) := by
    rintro ⟨mbr, full⟩
    exact Nat.not_lt.mpr full (mbrRoom mbr)
  have gptFull : ¬ (set.tableKind = .gpt ∧
      set.gptGeometry.numEntries.toNat ≤ set.partitions.length) := by
    rintro ⟨gpt, full⟩
    exact Nat.not_lt.mpr full (gptRoom gpt)
  have forward : ¬ set.usableRange.2 < set.usableRange.1 := by
    rw [UInt64.lt_iff_toNat_lt]
    omega
  have within : ¬ set.usableRange.2 < start + (lengthSectors - 1) := by
    rw [UInt64.lt_iff_toNat_lt, stopValue]
    omega
  have narrow : ¬ (set.tableKind = .mbr ∧ (mbrLbaMax < start ∨ mbrLbaMax < lengthSectors)) := by
    rintro ⟨mbr, wide⟩
    have bounds := usableRange_mbr mbr
    rw [UInt64.lt_iff_toNat_lt, UInt64.lt_iff_toNat_lt] at wide
    omega
  have clear : ¬ ∃ span ∈ spans, start ≤ span.2 ∧ span.1 ≤ start + (lengthSectors - 1) := by
    rintro ⟨span, member, meets⟩
    have apart := fits.clear _ (List.mem_map_of_mem member)
    rw [UInt64.le_iff_toNat_le, UInt64.le_iff_toNat_le, stopValue] at meets
    simp only [natSpan] at apart
    omega
  simp only [place, requested, refuseIf_of_not nonzero, ok_bind, refuseIf_of_not mbrFull,
    refuseIf_of_not gptFull, refuseIf_of_not forward, chooseStart, found, stop, orRefuse,
    refuseIf_of_not within, refuseIf_of_not narrow, occupied, refuseIf_of_not clear, valid]
  exact ⟨_, rfl⟩

/-- A call without a hint succeeds exactly when some place is free, and takes the lowest. -/
theorem place_firstFit (mbrRoom : set.tableKind = .mbr →
      set.partitions.length + set.reserved.length < MbrLayout.entryCount)
    (gptRoom : set.tableKind = .gpt → set.partitions.length < set.gptGeometry.numEntries.toNat)
    (computable : ∀ p ∈ set.partitions, ∃ span, p.sectorSpan = .ok span)
    (nonzero : length ≠ 0) (valid : ∃ kind, set.newKind typeId = .ok kind) :
    ((∃ p, set.place none length typeId label drawn = .ok p) ↔
      ∃ lba, FreePlace set (roundedUp length / 512) lba) ∧
    ∀ p, set.place none length typeId label drawn = .ok p →
      p.start.toNat % 512 = 0 ∧ p.length.toNat = roundedUp length ∧
        IsLeast { lba | FreePlace set (roundedUp length / 512) lba } (p.start.toNat / 512) := by
  obtain ⟨spans, occupied⟩ := exists_occupiedSpans computable
  obtain ⟨kind, valid⟩ := valid
  have positive := sectors_pos nonzero
  have rounded := toNat_requested length
  have bound := length.toNat_lt
  have last := set.usableRange_lt
  have short : (alignUp (divCeil length sectorSize) alignmentSectors).toNat < 2 ^ 60 := by
    have sectors := toNat_divCeil_sector length
    have aligned := toNat_alignUp (by omega : (divCeil length sectorSize).toNat < 2 ^ 60)
    omega
  have counted : roundedUp length / 512 =
      (alignUp (divCeil length sectorSize) alignmentSectors).toNat := by omega
  rw [counted]
  have least : ∀ p, set.place none length typeId label drawn = .ok p →
      p.start.toNat % 512 = 0 ∧ p.length.toNat = roundedUp length ∧
        IsLeast { lba | FreePlace set
          (alignUp (divCeil length sectorSize) alignmentSectors).toNat lba }
          (p.start.toNat / 512) := by
    intro p placed
    obtain ⟨_, start, stop, found⟩ := place_eq_ok placed
    have range := UInt64.le_iff_toNat_le.mp found.range
    have lowest := (findFree_spec occupied positive short range).1 start found.chosen
    have inside := lowest.1.last_le
    have bytes : p.start.toNat = start.toNat * 512 := by
      rw [found.start, toNat_lba_mul (by omega)]
    have startLba : p.start.toNat / 512 = start.toNat := by omega
    have ends := UInt64.le_iff_toNat_le.mp found.inside
    obtain ⟨lengthBytes, _, _⟩ := span_of_sectors bytes found.length positive found.stop (by omega)
    rw [startLba]
    exact ⟨by omega, lengthBytes.trans rounded, lowest⟩
  refine ⟨⟨?_, ?_⟩, least⟩
  · rintro ⟨p, placed⟩
    exact ⟨_, (least p placed).2.2.1⟩
  · rintro ⟨lba, free⟩
    have inside := free.last_le
    have first := free.first_le
    have range : set.usableRange.1.toNat ≤ set.usableRange.2.toNat := by omega
    cases searched : set.findFree (alignUp (divCeil length sectorSize) alignmentSectors)
        set.usableRange.1 set.usableRange.2 with
    | ok start => exact place_of_found mbrRoom gptRoom occupied nonzero valid range searched
    | error error =>
        exact absurd free ((findFree_spec occupied positive short range).2 error searched lba)

end Adding

end PartitionSet

end DiskPartitions
