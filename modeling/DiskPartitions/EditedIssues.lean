import DiskPartitions.RefreshedIssues
import DiskPartitions.SoundEdits

/-!
# The issues of an edited set

Whatever is added, removed and resized, every partition of a probed GPT carries the
issues a reader would give it, as long as no entry without a span shares a sector with
another: such an entry keeps its overlap bit through every edit, and the others are
judged without it.
-/

namespace DiskPartitions

open Slices CheckedWords Refusals

/-! ## Bits -/

theorem and_overlapsAnother (bits : UInt32) :
    bits &&& EntryIssue.overlapsAnother = 0 ∨
      bits &&& EntryIssue.overlapsAnother = EntryIssue.overlapsAnother := by
  have value : (bits &&& EntryIssue.overlapsAnother).toNat =
      (bits.toNat.testBit 2).toNat * 2 ^ 2 := by
    rw [UInt32.toNat_and]
    exact Nat.and_two_pow bits.toNat 2
  cases bit : bits.toNat.testBit 2 with
  | false =>
      refine .inl (UInt32.toNat_inj.mp ?_)
      rw [value, bit]
      rfl
  | true =>
      refine .inr (UInt32.toNat_inj.mp ?_)
      rw [value, bit]
      rfl

/-- Bits cut by a mask and by its complement make up the whole again. -/
theorem and_not_or_and (bits mask : UInt32) : bits &&& ~~~mask ||| bits &&& mask = bits := by
  apply UInt32.eq_of_toBitVec_eq
  apply BitVec.eq_of_getLsbD_eq
  intro i bound
  simp only [UInt32.toBitVec_and, UInt32.toBitVec_or, UInt32.toBitVec_not, BitVec.getLsbD_and,
    BitVec.getLsbD_or, BitVec.getLsbD_not, bound, decide_true, Bool.true_and]
  cases bits.toBitVec.getLsbD i <;> cases mask.toBitVec.getLsbD i <;> rfl

theorem or_and_self (bits mask : UInt32) : (bits ||| mask) &&& mask = mask := by
  apply UInt32.eq_of_toBitVec_eq
  apply BitVec.eq_of_getLsbD_eq
  intro i bound
  simp only [UInt32.toBitVec_and, UInt32.toBitVec_or, BitVec.getLsbD_and, BitVec.getLsbD_or]
  cases bits.toBitVec.getLsbD i <;> cases mask.toBitVec.getLsbD i <;> rfl

/-- Issues are given by their range part and their overlap bit. -/
theorem issues_eq {bits range : UInt32} {overlap : Bool}
    (cut : bits &&& ~~~EntryIssue.overlapsAnother = range)
    (bit : bits &&& EntryIssue.overlapsAnother ≠ 0 ↔ overlap = true) :
    bits = if overlap then range ||| EntryIssue.overlapsAnother else range := by
  have whole := and_not_or_and bits EntryIssue.overlapsAnother
  rw [cut] at whole
  rcases and_overlapsAnother bits with zero | set
  · have unset : ¬ overlap = true := fun marked => bit.mpr marked zero
    rw [zero, UInt32.or_zero] at whole
    rw [if_neg unset, whole]
  · have marked : overlap = true := by
      apply bit.mp
      rw [set]
      decide
    rw [set] at whole
    rw [if_pos marked, whole]

theorem markOverlap_bit (overlaps : Bool) (p : Partition) :
    (PartitionSet.markOverlap overlaps p).issues &&& EntryIssue.overlapsAnother ≠ 0 ↔
      overlaps = true := by
  cases overlaps with
  | true =>
      simp only [PartitionSet.markOverlap, if_true, or_and_self]
      decide
  | false =>
      have apart : ~~~EntryIssue.overlapsAnother &&& EntryIssue.overlapsAnother = 0 := by decide
      simp only [PartitionSet.markOverlap, Bool.false_eq_true, if_false, UInt32.and_assoc, apart,
        UInt32.and_zero]
      decide

/-- A list that reports its issues is what the reader makes of it. -/
theorem withIssues_of_reportsIssues {header : Header} {parts : List Partition}
    (ordered : ∀ p ∈ parts, p.lbaSpan.1 ≤ p.lbaSpan.2)
    (reports : ReportsIssues (header.firstUsableLba, header.lastUsableLba) parts) :
    withIssues header (parts.map fun p => (p, p.lbaSpan)) = parts := by
  have spans : (parts.map fun p => (p, p.lbaSpan)).map Prod.snd =
      parts.map Partition.lbaSpan := by
    rw [List.map_map]
    rfl
  have lengths : (markOverlaps (parts.map Partition.lbaSpan)).length = parts.length := by
    rw [length_markOverlaps, List.length_map]
  apply List.ext_getElem?
  intro k
  rw [withIssues, spans]
  cases found : parts[k]? with
  | none =>
      have past : parts.length ≤ k := List.getElem?_eq_none_iff.mp found
      rw [List.getElem?_eq_none]
      rw [List.length_zipWith, List.length_map]
      omega
  | some p =>
      have bound : k < parts.length := (List.getElem?_eq_some_iff.mp found).1
      have flag := List.getElem?_eq_getElem (lengths.symm ▸ bound :
        k < (markOverlaps (parts.map Partition.lbaSpan)).length)
      have issues := reports k p found
      have settled := issues_eq issues.range
        (issues.overlap.trans (markOverlaps_lbaSpan_iff ordered found flag).symm)
      rw [List.getElem?_zipWith_eq_some]
      refine ⟨(p, p.lbaSpan), _, by rw [List.getElem?_map, found]; rfl, flag, ?_⟩
      exact congrArg (fun issues => { p with issues }) settled.symm

/-! ## The invariant -/

/-- No partition without a span shares a sector with another partition. -/
def SpanlessApart (parts : List Partition) : Prop :=
  ∀ (k j : Nat) (p q : Partition), parts[k]? = some p → parts[j]? = some q → j ≠ k →
    p.Spanless → ¬ SharesSector p.lbaSpan q.lbaSpan

/-- The issues of the partition are those of its range, but for the overlap bit. -/
def Partition.RangeExact (usable : UInt64 × UInt64) (p : Partition) : Prop :=
  p.issues &&& ~~~EntryIssue.overlapsAnother =
    rangeIssues p.lbaSpan.1 p.lbaSpan.2 usable.1 usable.2

/-- A GPT under edit whose partitions report their issues against its usable range.  A
disk too small for its table has no room at all. -/
structure ExactIssues (usable : UInt64 × UInt64) (set : PartitionSet) : Prop where
  gpt : set.tableKind = .gpt
  usableRange : set.usableRange = usable ∨ set.usableRange = (34, 33)
  whole : ∀ p ∈ set.partitions, p.Whole
  reports : ReportsIssues usable set.partitions
  apart : SpanlessApart set.partitions

theorem SpanlessApart.of_spans {parts : List Partition} (spans : ∀ p ∈ parts, ¬ p.Spanless) :
    SpanlessApart parts :=
  fun _ _ p _ found _ _ spanless => absurd spanless (spans p (List.mem_of_getElem? found))

/-- A partition without a span that meets nobody carries no overlap bit. -/
theorem SpanlessApart.clear {usable : UInt64 × UInt64} {parts : List Partition}
    (apart : SpanlessApart parts) (reports : ReportsIssues usable parts) {p : Partition}
    (member : p ∈ parts) (spanless : p.Spanless) :
    p.issues &&& EntryIssue.overlapsAnother = 0 := by
  obtain ⟨k, found⟩ := List.mem_iff_getElem?.mp member
  by_contra set
  obtain ⟨j, q, differs, there, shares⟩ := (reports k p found).overlap.mp set
  exact apart k j p q found there differs spanless shares

section Refreshed

variable {set : PartitionSet}

/-- Everybody is where they were after a refresh, with the same bytes and range flags. -/
theorem getElem?_of_refreshed {k : Nat} {q : Partition}
    (found : set.refreshOverlapIssues.partitions[k]? = some q) :
    ∃ p, set.partitions[k]? = some p ∧ q.withoutOverlap = p.withoutOverlap := by
  have kept := PartitionSet.getElem?_refresh set k
  rw [found, Option.map_some, eq_comm, Option.map_eq_some_iff] at kept
  obtain ⟨p, there, same⟩ := kept
  exact ⟨p, there, same.symm⟩

theorem Partition.of_withoutOverlap {p q : Partition}
    (same : q.withoutOverlap = p.withoutOverlap) :
    q.start = p.start ∧ q.length = p.length ∧ q.lbaSpan = p.lbaSpan ∧
      q.issues &&& ~~~EntryIssue.overlapsAnother =
        p.issues &&& ~~~EntryIssue.overlapsAnother := by
  have start : q.withoutOverlap.start = p.withoutOverlap.start := by rw [same]
  have length : q.withoutOverlap.length = p.withoutOverlap.length := by rw [same]
  have issues : q.withoutOverlap.issues = p.withoutOverlap.issues := by rw [same]
  change q.start = p.start at start
  change q.length = p.length at length
  refine ⟨start, length, ?_, issues⟩
  rw [Partition.lbaSpan, Partition.lbaSpan, start, length]

theorem whole_refresh (whole : ∀ p ∈ set.partitions, p.Whole) :
    ∀ q ∈ set.refreshOverlapIssues.partitions, q.Whole := by
  intro q member
  obtain ⟨k, found⟩ := List.mem_iff_getElem?.mp member
  obtain ⟨p, there, same⟩ := getElem?_of_refreshed found
  obtain ⟨start, length, _, _⟩ := Partition.of_withoutOverlap same
  have own := whole p (List.mem_of_getElem? there)
  exact ⟨by rw [start]; exact own.start_aligned, by rw [length]; exact own.length_aligned,
    by rw [length]; exact own.length_pos⟩

theorem spanlessApart_refresh (apart : SpanlessApart set.partitions) :
    SpanlessApart set.refreshOverlapIssues.partitions := by
  intro k j p q found there differs spanless
  obtain ⟨old, before, same⟩ := getElem?_of_refreshed found
  obtain ⟨other, beside, alike⟩ := getElem?_of_refreshed there
  obtain ⟨start, length, span, _⟩ := Partition.of_withoutOverlap same
  obtain ⟨_, _, otherSpan, _⟩ := Partition.of_withoutOverlap alike
  rw [span, otherSpan]
  rw [Partition.Spanless, start, length] at spanless
  exact apart k j old other before beside differs spanless

/-- A refresh settles the overlap bits of a list whose range flags are right. -/
theorem reportsIssues_refresh {usable : UInt64 × UInt64} (gpt : set.tableKind = .gpt)
    (whole : ∀ p ∈ set.partitions, p.Whole) (apart : SpanlessApart set.partitions)
    (ranges : ∀ p ∈ set.partitions, p.RangeExact usable)
    (clear : ∀ p ∈ set.partitions, p.Spanless → p.issues &&& EntryIssue.overlapsAnother = 0) :
    ReportsIssues usable set.refreshOverlapIssues.partitions := by
  intro k q found
  obtain ⟨p, before, same⟩ := getElem?_of_refreshed found
  have member := List.mem_of_getElem? before
  obtain ⟨start, length, span, issues⟩ := Partition.of_withoutOverlap same
  have sharing : (∃ j r, j ≠ k ∧ set.refreshOverlapIssues.partitions[j]? = some r ∧
      SharesSector q.lbaSpan r.lbaSpan) ↔
      ∃ j r, j ≠ k ∧ set.partitions[j]? = some r ∧ SharesSector p.lbaSpan r.lbaSpan := by
    constructor
    · rintro ⟨j, r, differs, there, shares⟩
      obtain ⟨old, beside, alike⟩ := getElem?_of_refreshed there
      obtain ⟨_, _, oldSpan, _⟩ := Partition.of_withoutOverlap alike
      rw [span, oldSpan] at shares
      exact ⟨j, old, differs, beside, shares⟩
    · rintro ⟨j, old, differs, beside, shares⟩
      have kept := PartitionSet.getElem?_refresh set j
      rw [beside, Option.map_some, Option.map_eq_some_iff] at kept
      obtain ⟨r, there, alike⟩ := kept
      obtain ⟨_, _, oldSpan, _⟩ := Partition.of_withoutOverlap alike
      rw [← span, ← oldSpan] at shares
      exact ⟨j, r, differs, there, shares⟩
  constructor
  · rw [issues, span]
    exact ranges p member
  · rw [sharing]
    rcases PartitionSet.getElem?_refreshed gpt whole before with ⟨spanless, kept⟩ |
      ⟨spanned, overlaps, marked, flagIff⟩
    · rw [found, Option.some.injEq] at kept
      subst kept
      refine iff_of_false (not_not.mpr (clear q member spanless)) ?_
      rintro ⟨j, r, differs, there, shares⟩
      exact apart k j q r before there differs spanless shares
    · rw [found, Option.some.injEq] at marked
      subst marked
      rw [markOverlap_bit, flagIff]
      constructor
      · rintro ⟨j, r, differs, there, _, shares⟩
        exact ⟨j, r, differs, there, shares⟩
      · rintro ⟨j, r, differs, there, shares⟩
        -- an entry without a span would have to stay away from `p`
        exact ⟨j, r, differs, there, fun spanless =>
          apart j k r p there before differs.symm spanless shares.symm, shares⟩

end Refreshed

/-! ## One call -/

namespace ExactIssues

open PartitionSet

variable {usable : UInt64 × UInt64} {set : PartitionSet}

/-- The range flags are right. -/
theorem ranges (exact : ExactIssues usable set) :
    ∀ p ∈ set.partitions, p.RangeExact usable := by
  intro p member
  obtain ⟨k, found⟩ := List.mem_iff_getElem?.mp member
  exact (exact.reports k p found).range

/-- Spans that could be computed leave no partition without one. -/
theorem spans_of_occupied {skip : Option Nat} {spans : List (UInt64 × UInt64)}
    (whole : ∀ p ∈ set.partitions, p.Whole) (occupied : set.occupiedSpans skip = .ok spans)
    {q : Partition} (other : q ∈ set.otherPartitions skip) (member : q ∈ set.partitions) :
    ¬ q.Spanless ∧ q.lbaSpan ∈ spans := by
  obtain ⟨span, listed, computed⟩ := sectorSpan_of_occupied occupied other
  obtain ⟨spanned, rfl⟩ := (whole q member).sectorSpan_iff.mp computed
  exact ⟨spanned, listed⟩

section Added

variable {startHint : Option UInt64} {length : UInt64} {typeId : PartitionTypeId}
  {label : Option String} {drawn : Bytes16} {part : Partition}

theorem issues_of_place (placed : set.place startHint length typeId label drawn = .ok part) :
    part.issues = 0 :=
  (origin_of_place placed).1

/-- A new partition breaks no rule: it lies in the header's range and meets nobody. -/
theorem placed_clear (exact : ExactIssues usable set)
    (placed : set.place startHint length typeId label drawn = .ok part) :
    part.Whole ∧ ¬ part.Spanless ∧ (∀ q ∈ set.partitions, ¬ q.Spanless) ∧
      rangeIssues part.lbaSpan.1 part.lbaSpan.2 usable.1 usable.2 = EntryIssue.none ∧
      ∀ q ∈ set.partitions, ¬ SharesSector part.lbaSpan q.lbaSpan := by
  obtain ⟨nonzero, startLba, endLba, found⟩ := place_eq_ok placed
  have positive := sectors_pos nonzero
  have last := set.usableRange_lt
  have range := found.range
  have inside := found.inside
  have first := chooseStart_ge (by
    rw [UInt64.le_iff_toNat_le] at range
    omega) found.chosen
  -- a disk with no room refuses before anything is placed
  have declared : set.usableRange = usable := by
    rcases exact.usableRange with same | none
    · exact same
    · rw [none] at range
      exact absurd range (by decide)
  rw [UInt64.le_iff_toNat_le] at range inside
  have stop := checkedAdd_eq_some.mp found.stop
  have start : part.start.toNat = startLba.toNat * 512 := by
    rw [found.start, toNat_lba_mul (by omega)]
  obtain ⟨bytes, ends, _⟩ := span_of_sectors start found.length positive found.stop (by omega)
  have whole : part.Whole := ⟨by omega, by omega, by omega⟩
  obtain ⟨low, high⟩ := whole.toNat_lbaSpan
  have firstLba : part.lbaSpan.1 = startLba := by
    rw [← UInt64.toNat_inj]
    omega
  have lastLba : part.lbaSpan.2 = endLba := by
    rw [← UInt64.toNat_inj]
    omega
  obtain ⟨spans, occupied, clear⟩ := found.clear
  have others : ∀ q ∈ set.partitions, ¬ q.Spanless ∧ q.lbaSpan ∈ spans := by
    intro q member
    refine spans_of_occupied exact.whole occupied ?_ member
    rw [otherPartitions_none]
    exact member
  refine ⟨whole, by rw [Partition.Spanless]; omega, fun q member => (others q member).1, ?_, ?_⟩
  · have before : ¬ part.lbaSpan.1 < usable.1 := by
      rw [UInt64.lt_iff_toNat_lt, ← declared, firstLba]
      omega
    have past : ¬ (usable.2 < part.lbaSpan.1 ∨ usable.2 < part.lbaSpan.2) := by
      rw [UInt64.lt_iff_toNat_lt, UInt64.lt_iff_toNat_lt, ← declared, firstLba, lastLba]
      omega
    simp only [rangeIssues, before, past, if_false]
  · intro q member shares
    rw [SharesSector, firstLba, lastLba] at shares
    exact clear _ (others q member).2 shares

/-- A partition that breaks no rule and meets nobody is added without a change to the
others. -/
theorem reportsIssues_append {parts : List Partition} (reports : ReportsIssues usable parts)
    (fresh : part.issues = 0)
    (range : rangeIssues part.lbaSpan.1 part.lbaSpan.2 usable.1 usable.2 = EntryIssue.none)
    (apart : ∀ q ∈ parts, ¬ SharesSector part.lbaSpan q.lbaSpan) :
    ReportsIssues usable (parts ++ [part]) := by
  intro k p found
  rw [List.getElem?_append] at found
  split at found
  next inside =>
    have issues := reports k p found
    refine ⟨issues.range, issues.overlap.trans ?_⟩
    constructor
    · rintro ⟨j, q, differs, there, shares⟩
      have bound : j < parts.length := (List.getElem?_eq_some_iff.mp there).1
      exact ⟨j, q, differs, by rw [List.getElem?_append_left bound]; exact there, shares⟩
    · rintro ⟨j, q, differs, there, shares⟩
      rw [List.getElem?_append] at there
      split at there
      · exact ⟨j, q, differs, there, shares⟩
      · rw [List.mem_singleton.mp (List.mem_of_getElem? there)] at shares
        exact absurd shares.symm (apart p (List.mem_of_getElem? found))
  next past =>
    have new : p = part := List.mem_singleton.mp (List.mem_of_getElem? found)
    have place : k = parts.length := by
      have bound := (List.getElem?_eq_some_iff.mp found).1
      rw [List.length_singleton] at bound
      omega
    subst new
    refine ⟨?_, ?_⟩
    · rw [fresh, range]
      decide
    · rw [fresh]
      refine iff_of_false (by decide) ?_
      rintro ⟨j, q, differs, there, shares⟩
      have bound := (List.getElem?_eq_some_iff.mp there).1
      rw [List.length_append, List.length_singleton] at bound
      rw [List.getElem?_append_left (by omega)] at there
      exact apart q (List.mem_of_getElem? there) shares

theorem add (exact : ExactIssues usable set)
    (placed : set.place startHint length typeId label drawn = .ok part) :
    ExactIssues usable { set with partitions := set.partitions ++ [part] } := by
  obtain ⟨whole, spanned, spans, range, apart⟩ := exact.placed_clear placed
  have each : ∀ p ∈ set.partitions ++ [part], p.Whole ∧ ¬ p.Spanless := by
    intro p member
    rcases List.mem_append.mp member with old | new
    · exact ⟨exact.whole p old, spans p old⟩
    · rw [List.mem_singleton.mp new]
      exact ⟨whole, spanned⟩
  exact {
    gpt := exact.gpt
    usableRange := exact.usableRange
    whole := fun p member => (each p member).1
    reports := reportsIssues_append exact.reports (issues_of_place placed) range apart
    apart := .of_spans fun p member => (each p member).2 }

end Added

/-- A refresh of a changed list whose range flags are right. -/
theorem refresh (exact : ExactIssues usable set) {partitions : List Partition}
    (whole : ∀ p ∈ partitions, p.Whole) (apart : SpanlessApart partitions)
    (ranges : ∀ p ∈ partitions, p.RangeExact usable)
    (clear : ∀ p ∈ partitions, p.Spanless → p.issues &&& EntryIssue.overlapsAnother = 0) :
    ExactIssues usable { set with partitions }.refreshOverlapIssues := by
  have gpt : { set with partitions }.tableKind = .gpt := exact.gpt
  have range : { set with partitions }.refreshOverlapIssues.usableRange = set.usableRange := by
    simp only [PartitionSet.usableRange, tableKind_refresh, diskSize_refresh,
      gptGeometry_refresh]
  exact {
    gpt := by rw [tableKind_refresh, gpt]
    usableRange := by
      rw [range]
      exact exact.usableRange
    whole := whole_refresh whole
    reports := reportsIssues_refresh gpt whole apart ranges clear
    apart := spanlessApart_refresh apart }

theorem remove (exact : ExactIssues usable set) (index : Nat) :
    ExactIssues usable
      { set with partitions := set.partitions.eraseIdx index }.refreshOverlapIssues := by
  apply exact.refresh
  · exact fun p member => exact.whole p (List.mem_of_mem_eraseIdx member)
  · have place : ∀ i, (set.partitions.eraseIdx index)[i]? =
        set.partitions[if i < index then i else i + 1]? := by
      intro i
      rw [List.getElem?_eraseIdx]
      split <;> rfl
    intro k j p q found there differs
    rw [place] at found there
    refine exact.apart _ _ p q found there ?_
    split <;> split <;> omega
  · exact fun p member => exact.ranges p (List.mem_of_mem_eraseIdx member)
  · exact fun p member => exact.apart.clear exact.reports (List.mem_of_mem_eraseIdx member)

/-- Clearing the rule about the end leaves the rule about the start. -/
theorem rangeIssues_resized {bits : UInt32} {first oldLast newLast : UInt64}
    (cut : bits &&& ~~~EntryIssue.overlapsAnother =
      rangeIssues first oldLast usable.1 usable.2)
    (inside : ¬ (usable.2 < first ∨ usable.2 < newLast)) :
    (bits &&& ~~~EntryIssue.pastLastUsable) &&& ~~~EntryIssue.overlapsAnother =
      rangeIssues first newLast usable.1 usable.2 := by
  have swapped : (bits &&& ~~~EntryIssue.pastLastUsable) &&& ~~~EntryIssue.overlapsAnother =
      (bits &&& ~~~EntryIssue.overlapsAnother) &&& ~~~EntryIssue.pastLastUsable := by
    rw [UInt32.and_assoc, UInt32.and_assoc, UInt32.and_comm (~~~EntryIssue.pastLastUsable)]
  rw [swapped, cut]
  unfold rangeIssues
  by_cases before : first < usable.1 <;>
    by_cases past : usable.2 < first ∨ usable.2 < oldLast <;>
      simp only [before, past, inside, if_true, if_false] <;> decide

/-- The resized partition ends inside the header's range. -/
theorem resized_clear (exact : ExactIssues usable set) {target : PartitionRef}
    {newLength sectors : UInt64} {index : Nat}
    (computed : set.resized target newLength = .ok (index, sectors)) :
    ∃ p, set.partitions[index]? = some p ∧ (setLength sectors p).Whole ∧
      ¬ (setLength sectors p).Spanless ∧ (setLength sectors p).RangeExact usable := by
  obtain ⟨nonzero, rfl, p, endLba, found⟩ := resized_eq_ok computed
  have positive := sectors_pos nonzero
  have rounded := toNat_requested newLength
  have last := set.usableRange_lt
  have inside := found.inside
  have member := List.mem_of_getElem? found.found
  have own := exact.whole p member
  have startAligned := own.start_aligned
  have one : (1 : UInt64).toNat = 1 := rfl
  have lba : (p.start / sectorSize).toNat = p.start.toNat / 512 := by
    rw [UInt64.toNat_div, toNat_sectorSize]
  have ends := checkedAdd_eq_some.mp found.stop
  rw [toNat_sub_of_le (by omega), one, lba] at ends
  rw [UInt64.le_iff_toNat_le] at inside
  have length : (setLength (alignUp (divCeil newLength sectorSize) alignmentSectors) p).length.toNat
      = roundedUp newLength := by
    rw [← rounded]
    exact toNat_lba_mul (by omega)
  have start : (setLength (alignUp (divCeil newLength sectorSize) alignmentSectors) p).start =
      p.start := rfl
  have whole : (setLength (alignUp (divCeil newLength sectorSize) alignmentSectors) p).Whole :=
    ⟨startAligned, by omega, by omega⟩
  obtain ⟨low, high⟩ := whole.toNat_lbaSpan
  rw [length, start] at high
  rw [start] at low
  refine ⟨p, found.found, whole, ?_, ?_⟩
  · rw [Partition.Spanless, length, start]
    omega
  · -- a disk with no room refuses: a partition of 1 MiB ends past LBA 33
    have declared : set.usableRange = usable := by
      rcases exact.usableRange with same | none
      · exact same
      · have large : 1 ≤ (newLength.toNat + (2 ^ 20 - 1)) / 2 ^ 20 := by
          have requested : 0 < newLength.toNat := by
            apply Nat.pos_of_ne_zero
            intro zero
            exact nonzero (UInt64.toNat_inj.mp zero)
          omega
        have small : set.usableRange.2.toNat = 33 := by
          rw [none]
          rfl
        rw [roundedUp] at rounded
        omega
    apply rangeIssues_resized (exact.ranges p member)
    have ownLow := own.toNat_lbaSpan.1
    rw [UInt64.lt_iff_toNat_lt, UInt64.lt_iff_toNat_lt, ← declared]
    omega

theorem resize (exact : ExactIssues usable set) {target : PartitionRef}
    {newLength sectors : UInt64} {index : Nat}
    (computed : set.resized target newLength = .ok (index, sectors)) :
    ExactIssues usable { set with
      partitions := set.partitions.modify index (setLength sectors) }.refreshOverlapIssues := by
  obtain ⟨p, found, whole, spanned, range⟩ := exact.resized_clear computed
  obtain ⟨_, _, _, _, checked⟩ := resized_eq_ok computed
  obtain ⟨spans, occupied, _⟩ := checked.clear
  have each : ∀ q ∈ set.partitions.modify index (setLength sectors),
      q.Whole ∧ ¬ q.Spanless ∧ q.RangeExact usable := by
    intro q member
    obtain ⟨k, there⟩ := List.mem_iff_getElem?.mp member
    rw [List.getElem?_modify] at there
    by_cases here : index = k
    · subst here
      rw [found] at there
      simp only [if_true, Option.map_eq_map, Option.map_some, Option.some.injEq] at there
      subst there
      exact ⟨whole, spanned, range⟩
    · simp only [here, if_false, Option.map_eq_map, Option.map_id'] at there
      have listed := List.mem_of_getElem? there
      refine ⟨exact.whole q listed, (spans_of_occupied exact.whole occupied ?_ listed).1,
        exact.ranges q listed⟩
      rw [otherPartitions_some, List.mem_eraseIdx_iff_getElem?]
      exact ⟨k, Ne.symm here, there⟩
  apply exact.refresh
  · exact fun q member => (each q member).1
  · exact .of_spans fun q member => (each q member).2.1
  · exact fun q member => (each q member).2.2
  · exact fun q member spanless => absurd spanless (each q member).2.1

/-- Every call keeps the issues exact. -/
theorem apply (exact : ExactIssues usable set) (edit : Edit) :
    ExactIssues usable (edit.apply set) := by
  rcases Edit.apply_cases set edit with same | ⟨_, _, _, _, _, part, _, placed, same⟩ |
    ⟨index, same⟩ | ⟨_, _, index, sectors, computed, same⟩
  · rwa [same]
  · rw [same]
    exact exact.add placed
  · rw [same]
    exact exact.remove index
  · rw [same]
    exact exact.resize computed

theorem applyAll (exact : ExactIssues usable set) (edits : List Edit) :
    ExactIssues usable (Edit.applyAll edits set) :=
  Edit.applyAll_induction (fun edit _ _ held => held.apply edit) exact

end ExactIssues

end DiskPartitions
