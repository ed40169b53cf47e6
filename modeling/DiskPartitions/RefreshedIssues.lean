import DiskPartitions.PartitionEdits
import DiskPartitions.ReportedEntries
import Mathlib.Data.List.Sigma

/-!
# Refreshing the overlap bits

After a refresh an entry with a span carries the overlap bit exactly when it shares a
sector with another entry that has one, and an entry without a span is as it was.
-/

namespace DiskPartitions

open Slices CheckedWords Refusals

/-! ## Partitions of whole sectors -/

namespace Partition

/-- A partition of whole sectors, at least one of them. -/
structure Whole (p : Partition) : Prop where
  start_aligned : p.start.toNat % 512 = 0
  length_aligned : p.length.toNat % 512 = 0
  length_pos : 0 < p.length.toNat

/-- The byte after the partition has no number, so its last sector is not computed. -/
def Spanless (p : Partition) : Prop := 2 ^ 64 ≤ p.start.toNat + p.length.toNat

instance (p : Partition) : Decidable p.Spanless := inferInstanceAs (Decidable (_ ≤ _))

variable {p : Partition}

theorem Whole.toNat_lbaSpan (whole : p.Whole) :
    p.lbaSpan.1.toNat = p.start.toNat / 512 ∧
      p.lbaSpan.2.toNat = (p.start.toNat + p.length.toNat - 1) / 512 := by
  have start := whole.start_aligned
  have length := whole.length_aligned
  have positive := whole.length_pos
  have startBound := p.start.toNat_lt
  have lengthBound := p.length.toNat_lt
  have one : (1 : UInt64).toNat = 1 := rfl
  have first : (p.start / sectorSize).toNat = p.start.toNat / 512 := by
    rw [UInt64.toNat_div, toNat_sectorSize]
  have count : (p.length / sectorSize).toNat = p.length.toNat / 512 := by
    rw [UInt64.toNat_div, toNat_sectorSize]
  have past : (p.length / sectorSize - 1).toNat = p.length.toNat / 512 - 1 := by
    rw [toNat_sub_of_le (by omega), count, one]
  refine ⟨first, ?_⟩
  rw [lbaSpan, toNat_add_of_lt (by omega), first, past]
  omega

theorem Whole.ordered (whole : p.Whole) : p.lbaSpan.1 ≤ p.lbaSpan.2 := by
  obtain ⟨first, last⟩ := whole.toNat_lbaSpan
  have positive := whole.length_pos
  rw [UInt64.le_iff_toNat_le]
  omega

/-- A partition of whole sectors has its LBA range for a span, or none. -/
theorem Whole.sectorSpan_iff (whole : p.Whole) {span : UInt64 × UInt64} :
    p.sectorSpan = .ok span ↔ ¬ p.Spanless ∧ span = p.lbaSpan := by
  obtain ⟨first, last⟩ := whole.toNat_lbaSpan
  have positive := whole.length_pos
  obtain ⟨low, high⟩ := span
  rw [sectorSpan_eq_ok, Spanless, Nat.not_le, Prod.ext_iff, ← UInt64.toNat_inj,
    ← UInt64.toNat_inj, first, last]
  constructor
  · rintro ⟨_, bounded, lowEq, highEq⟩
    exact ⟨bounded, lowEq, highEq⟩
  · rintro ⟨bounded, lowEq, highEq⟩
    exact ⟨positive, bounded, lowEq, highEq⟩

end Partition

/-! ## Marks by index -/

/-- The flags of indexed spans, each beside its index. -/
theorem mem_zip_markOverlaps {spans : List (Nat × UInt64 × UInt64)}
    (distinct : (spans.map Prod.fst).Nodup) (ordered : ∀ entry ∈ spans, entry.2.1 ≤ entry.2.2)
    {k : Nat} {span : UInt64 × UInt64} (member : (k, span) ∈ spans) :
    ∃ overlaps, (k, overlaps) ∈
        (spans.map Prod.fst).zip (markOverlaps (spans.map Prod.snd)) ∧
      (overlaps = true ↔ ∃ j other, j ≠ k ∧ (j, other) ∈ spans ∧ SharesSector span other) := by
  have inOrder : ∀ range ∈ spans.map Prod.snd, range.1 ≤ range.2 := by
    intro range listed
    obtain ⟨entry, present, rfl⟩ := List.mem_map.mp listed
    exact ordered entry present
  obtain ⟨lengthEq, flagIff⟩ := markOverlaps_flag_iff inOrder
  obtain ⟨place, found⟩ := List.mem_iff_getElem?.mp member
  have bound : place < spans.length := (List.getElem?_eq_some_iff.mp found).1
  have inside : place < (markOverlaps (spans.map Prod.snd)).length := by
    rw [lengthEq, List.length_map]
    exact bound
  have flag := List.getElem?_eq_getElem inside
  refine ⟨(markOverlaps (spans.map Prod.snd))[place], ?_, ?_⟩
  · apply List.mem_iff_getElem?.mpr
    refine ⟨place, ?_⟩
    rw [List.getElem?_zip_eq_some, List.getElem?_map, found]
    exact ⟨rfl, flag⟩
  · have keyAt : ∀ (i : Nat) (entry : Nat × UInt64 × UInt64), spans[i]? = some entry →
        (spans.map Prod.fst)[i]? = some entry.1 := by
      intro i entry there
      rw [List.getElem?_map, there]
      rfl
    have spanAt : ∀ (i : Nat) (entry : Nat × UInt64 × UInt64), spans[i]? = some entry →
        (spans.map Prod.snd).getD i (0, 0) = entry.2 := by
      intro i entry there
      rw [List.getD_eq_getElem?_getD, List.getElem?_map, there]
      rfl
    have here := flagIff place
    rw [flag, Option.some.injEq, List.length_map, spanAt place _ found] at here
    rw [here]
    constructor
    · rintro ⟨_, i, small, differs, shares⟩
      have there : spans[i]? = some spans[i] := List.getElem?_eq_getElem small
      rw [spanAt i _ there] at shares
      refine ⟨spans[i].1, spans[i].2, ?_, List.getElem_mem small, shares⟩
      intro same
      apply differs
      have small' : i < (spans.map Prod.fst).length := by
        rw [List.length_map]
        exact small
      apply (List.getElem?_inj small' distinct).mp
      rw [keyAt i _ there, keyAt place _ found, same]
    · rintro ⟨j, other, differs, listed, shares⟩
      obtain ⟨i, there⟩ := List.mem_iff_getElem?.mp listed
      refine ⟨bound, i, (List.getElem?_eq_some_iff.mp there).1, ?_, ?_⟩
      · rintro rfl
        rw [found] at there
        cases there
        exact differs rfl
      · rw [spanAt i _ there]
        exact shares

namespace PartitionSet

variable {set : PartitionSet}

/-- The partitions that have a span, by index. -/
def indexedSpans (set : PartitionSet) : List (Nat × UInt64 × UInt64) :=
  (set.partitions.zipIdx).filterMap fun entry =>
    entry.1.sectorSpan.toOption.map fun span => (entry.2, span)

theorem mem_indexedSpans {k : Nat} {span : UInt64 × UInt64} :
    (k, span) ∈ set.indexedSpans ↔
      ∃ p, set.partitions[k]? = some p ∧ p.sectorSpan = .ok span := by
  have listed : ∀ p : Partition, p.sectorSpan.toOption = some span ↔ p.sectorSpan = .ok span := by
    intro p
    cases p.sectorSpan with
    | error error => simp [Except.toOption]
    | ok value => simp [Except.toOption]
  rw [indexedSpans, List.mem_filterMap]
  constructor
  · rintro ⟨⟨p, i⟩, found, made⟩
    obtain ⟨own, computed, same⟩ := Option.map_eq_some_iff.mp made
    cases same
    exact ⟨p, List.mem_zipIdx_iff_getElem?.mp found, (listed p).mp computed⟩
  · rintro ⟨p, found, computed⟩
    refine ⟨(p, k), List.mem_zipIdx_iff_getElem?.mpr found, ?_⟩
    rw [(listed p).mpr computed]
    rfl

theorem nodup_indexedSpans (set : PartitionSet) : (set.indexedSpans.map Prod.fst).Nodup := by
  have indices : set.partitions.zipIdx.Pairwise fun first second => first.2 ≠ second.2 :=
    List.pairwise_map.mp (List.nodup_zipIdx_map_snd set.partitions)
  apply List.pairwise_map.mpr
  rw [indexedSpans, List.pairwise_filterMap]
  apply indices.imp
  intro first second differs one oneFound other otherFound same
  obtain ⟨_, _, rfl⟩ := Option.map_eq_some_iff.mp oneFound
  obtain ⟨_, _, rfl⟩ := Option.map_eq_some_iff.mp otherFound
  exact differs same

theorem refresh_of_gpt (gpt : set.tableKind = .gpt) :
    set.refreshOverlapIssues.partitions =
      ((set.indexedSpans.map Prod.fst).zip
        (markOverlaps (set.indexedSpans.map Prod.snd))).foldl
        (fun parts mark => parts.modify mark.1 (markOverlap mark.2)) set.partitions := by
  unfold refreshOverlapIssues
  rw [if_neg (not_not.mpr gpt)]
  rfl

/-- What a refresh makes of the partition in place `k`. -/
theorem getElem?_refreshed (gpt : set.tableKind = .gpt)
    (whole : ∀ p ∈ set.partitions, p.Whole) {k : Nat} {p : Partition}
    (found : set.partitions[k]? = some p) :
    (p.Spanless ∧ set.refreshOverlapIssues.partitions[k]? = some p) ∨
    ¬ p.Spanless ∧ ∃ overlaps,
      set.refreshOverlapIssues.partitions[k]? = some (markOverlap overlaps p) ∧
      (overlaps = true ↔ ∃ j q, j ≠ k ∧ set.partitions[j]? = some q ∧ ¬ q.Spanless ∧
        SharesSector p.lbaSpan q.lbaSpan) := by
  have wholeAt : ∀ {i : Nat} {q : Partition}, set.partitions[i]? = some q → q.Whole :=
    fun there => whole _ (List.mem_of_getElem? there)
  have lengths : (set.indexedSpans.map Prod.fst).length =
      (markOverlaps (set.indexedSpans.map Prod.snd)).length := by
    rw [length_markOverlaps, List.length_map, List.length_map]
  have distinct : (((set.indexedSpans.map Prod.fst).zip
      (markOverlaps (set.indexedSpans.map Prod.snd))).map Prod.fst).Nodup := by
    rw [List.map_fst_zip (Nat.le_of_eq lengths)]
    exact set.nodup_indexedSpans
  obtain ⟨marked, unmarked⟩ := @getElem?_foldl_modify _ _ markOverlap _ distinct
    set.partitions k
  rw [← refresh_of_gpt gpt, found] at marked unmarked
  by_cases spanless : p.Spanless
  · refine .inl ⟨spanless, unmarked ?_⟩
    rw [List.map_fst_zip (Nat.le_of_eq lengths)]
    intro member
    obtain ⟨⟨_, span⟩, present, rfl⟩ := List.mem_map.mp member
    obtain ⟨q, there, computed⟩ := mem_indexedSpans.mp present
    rw [found] at there
    cases there
    exact ((wholeAt found).sectorSpan_iff.mp computed).1 spanless
  · refine .inr ⟨spanless, ?_⟩
    have present : (k, p.lbaSpan) ∈ set.indexedSpans :=
      mem_indexedSpans.mpr ⟨p, found, (wholeAt found).sectorSpan_iff.mpr ⟨spanless, rfl⟩⟩
    have ordered : ∀ entry ∈ set.indexedSpans, entry.2.1 ≤ entry.2.2 := by
      rintro ⟨i, span⟩ member
      obtain ⟨q, there, computed⟩ := mem_indexedSpans.mp member
      obtain ⟨_, rfl⟩ := (wholeAt there).sectorSpan_iff.mp computed
      exact (wholeAt there).ordered
    obtain ⟨overlaps, listed, flagIff⟩ :=
      mem_zip_markOverlaps set.nodup_indexedSpans ordered present
    refine ⟨overlaps, marked overlaps listed, flagIff.trans ?_⟩
    constructor
    · rintro ⟨j, other, differs, member, shares⟩
      obtain ⟨q, there, computed⟩ := mem_indexedSpans.mp member
      obtain ⟨spanned, rfl⟩ := (wholeAt there).sectorSpan_iff.mp computed
      exact ⟨j, q, differs, there, spanned, shares⟩
    · rintro ⟨j, q, differs, there, spanned, shares⟩
      exact ⟨j, q.lbaSpan, differs, mem_indexedSpans.mpr
        ⟨q, there, (wholeAt there).sectorSpan_iff.mpr ⟨spanned, rfl⟩⟩, shares⟩

end PartitionSet

end DiskPartitions
