import DiskPartitions.MbrOverGpt

/-!
# The planner and the writers agree

A set started empty and edited only through its interface keeps its partitions
aligned, inside the usable range and apart.  That is what the writers check, so a
commit to a device of the planned size succeeds and reads back, provided every
partition has a type its table can store.
-/

namespace DiskPartitions

open Slices LittleEndian CheckedWords Refusals WriteJournal KeyOrder FallibleState

/-! ## Alignment -/

theorem toNat_alignmentSectors : alignmentSectors.toNat = 2048 := rfl

/-- What is past the last multiple of 2048, and what is missing to the next. -/
theorem toNat_alignment (value : UInt64) :
    (value % alignmentSectors).toNat = value.toNat % 2048 ∧
      (alignmentSectors - value % alignmentSectors).toNat = 2048 - value.toNat % 2048 := by
  have remainder : (value % alignmentSectors).toNat = value.toNat % 2048 := by
    rw [UInt64.toNat_mod, toNat_alignmentSectors]
  have below : value.toNat % 2048 < 2048 := Nat.mod_lt _ (by decide)
  refine ⟨remainder, ?_⟩
  rw [toNat_sub_of_le (by rw [remainder, toNat_alignmentSectors]; omega), remainder,
    toNat_alignmentSectors]

/-- Alignment goes to the next multiple of 2048. -/
theorem toNat_alignUp_eq {value : UInt64} (small : value.toNat < 2 ^ 60) :
    (alignUp value alignmentSectors).toNat = (value.toNat + 2047) / 2048 * 2048 := by
  obtain ⟨remainder, missing⟩ := toNat_alignment value
  have below : value.toNat % 2048 < 2048 := Nat.mod_lt _ (by decide)
  simp only [alignUp]
  split
  next exact =>
    rw [exact] at remainder
    change 0 = _ at remainder
    omega
  next inexact =>
    have positive : 0 < value.toNat % 2048 := by
      rw [← remainder]
      apply Nat.pos_of_ne_zero
      intro zero
      exact inexact (UInt64.toNat_inj.mp zero)
    rw [toNat_add_of_lt (by rw [missing]; omega), missing]
    omega

/-- Alignment rounds up by less than its step. -/
theorem toNat_alignUp {value : UInt64} (small : value.toNat < 2 ^ 60) :
    value.toNat ≤ (alignUp value alignmentSectors).toNat ∧
      (alignUp value alignmentSectors).toNat < value.toNat + 2048 := by
  rw [toNat_alignUp_eq small]
  omega

theorem toNat_divCeil_sector (bytes : UInt64) :
    (divCeil bytes sectorSize).toNat = (bytes.toNat + 511) / 512 := by
  rw [toNat_divCeil (by rw [toNat_sectorSize]; decide), toNat_sectorSize]
  rfl

/-- A length that is not zero takes at least one sector. -/
theorem sectors_pos {length : UInt64} (nonzero : length ≠ 0) :
    0 < (alignUp (divCeil length sectorSize) alignmentSectors).toNat := by
  have bound := length.toNat_lt
  have sectors := toNat_divCeil_sector length
  have positive : 0 < length.toNat := by
    apply Nat.pos_of_ne_zero
    intro zero
    exact nonzero (UInt64.toNat_inj.mp zero)
  have aligned := toNat_alignUp (by omega : (divCeil length sectorSize).toNat < 2 ^ 60)
  omega

namespace PartitionSet

variable {set : PartitionSet}

/-- The last usable LBA has a byte offset. -/
theorem usableRange_lt (set : PartitionSet) : set.usableRange.2.toNat + 1 < 2 ^ 55 := by
  have size := set.diskSize.toNat_lt
  have total : (set.diskSize / sectorSize).toNat = set.diskSize.toNat / 512 := by
    rw [UInt64.toNat_div, toNat_sectorSize]
  simp only [usableRange]
  split
  · split
    next range accepted =>
      have last := (GptGeometry.usableRange_eq_ok accepted).last_lt
      omega
    next => decide
  · split
    next => decide
    next large =>
      have two : (2 : UInt64).toNat = 2 := rfl
      have one : (1 : UInt64).toNat = 1 := rfl
      rw [UInt64.lt_iff_toNat_lt, two] at large
      have last : (set.diskSize / sectorSize - 1).toNat = set.diskSize.toNat / 512 - 1 := by
        rw [toNat_sub_of_le (by omega), total, one]
      change (min (set.diskSize / sectorSize - 1) mbrLbaMax).toNat + 1 < 2 ^ 55
      rw [UInt64.toNat_min]
      omega

theorem walkSpans_ge {lengthSectors lastUsable cursor start : UInt64}
    {spans : List (UInt64 × UInt64)}
    (found : walkSpans lengthSectors lastUsable spans cursor = .ok start) :
    cursor.toNat ≤ start.toNat := by
  induction spans generalizing cursor with
  | nil =>
      unfold walkSpans at found
      split at found
      · cases found
        exact Nat.le_refl _
      · cases found
  | cons span spans ih =>
      simp only [walkSpans] at found
      split at found
      · cases found
        exact Nat.le_refl _
      · have later := ih found
        have forward : cursor ≤ max cursor (alignUp (span.2 + 1) alignmentSectors) := by
          rw [UInt64.max_def]
          split
          next le => exact le
          next => exact UInt64.le_refl _
        rw [UInt64.le_iff_toNat_le] at forward
        exact Nat.le_trans forward later

/-- A new partition starts inside the usable range. -/
theorem chooseStart_ge {startHint : Option UInt64} {lengthSectors first last start : UInt64}
    (small : first.toNat < 2 ^ 55)
    (chosen : set.chooseStart startHint lengthSectors first last = .ok start) :
    first.toNat ≤ start.toNat := by
  unfold chooseStart at chosen
  split at chosen
  next byte =>
    cases chosen
    have bound := byte.toNat_lt
    have sectors := toNat_divCeil_sector byte
    have raised : first ≤ max (divCeil byte sectorSize) first ∧
        (max (divCeil byte sectorSize) first).toNat < 2 ^ 60 := by
      rw [UInt64.max_def]
      split
      · exact ⟨UInt64.le_refl _, by omega⟩
      next greater => exact ⟨UInt64.le_of_lt (UInt64.not_le.mp greater), by omega⟩
    rw [UInt64.le_iff_toNat_le] at raised
    exact Nat.le_trans raised.1 (toNat_alignUp raised.2).1
  · obtain ⟨spans, _, found⟩ := bind_eq_ok.mp chosen
    exact Nat.le_trans (toNat_alignUp (by omega)).1 (walkSpans_ge found)

/-- Every partition that is not skipped has its span among the occupied ones. -/
theorem span_mem_occupiedSpans {skip : Option Nat} {spans : List (UInt64 × UInt64)}
    (computed : set.occupiedSpans skip = .ok spans) {q : Partition}
    (member : q ∈ set.otherPartitions skip) : q.span ∈ spans := by
  obtain ⟨own, mapped, rest⟩ := bind_eq_ok.mp computed
  have inOwn : q.span ∈ own := by
    have pairs := mapM_eq_ok mapped
    clear mapped rest computed
    generalize set.otherPartitions skip = others at member pairs
    induction pairs with
    | nil => cases member
    | cons head _ ih =>
        rcases List.mem_cons.mp member with rfl | later
        · rw [Partition.span_of_ok head]
          simp
        · exact List.mem_cons_of_mem _ (ih later)
  cases rest
  split
  · exact List.mem_append_left _ inOwn
  · exact inOwn

theorem otherPartitions_none (set : PartitionSet) :
    set.otherPartitions none = set.partitions := by
  unfold otherPartitions
  simp only [ne_eq, reduceCtorEq, not_false_eq_true, if_true]
  change set.partitions.zipIdx.filterMap (some ∘ Prod.fst) = _
  rw [List.filterMap_eq_map, List.zipIdx_map_fst]

theorem filterMap_zipIdx_eraseIdx {α : Type} (items : List α) (index base : Nat) :
    ((items.zipIdx base).filterMap fun entry =>
      if some entry.2 ≠ some (base + index) then some entry.1 else none) =
      items.eraseIdx index := by
  induction items generalizing index base with
  | nil => rfl
  | cons item items ih =>
      rw [List.zipIdx_cons]
      cases index with
      | zero =>
          rw [List.filterMap_cons_none (by simp), List.eraseIdx_zero, List.tail_cons]
          have kept : ∀ entry ∈ items.zipIdx (base + 1), some entry.2 ≠ some (base + 0) := by
            intro entry member same
            have := List.le_snd_of_mem_zipIdx member
            simp only [Option.some.injEq] at same
            omega
          rw [List.filterMap_congr fun entry member => if_pos (kept entry member)]
          change (items.zipIdx (base + 1)).filterMap (some ∘ Prod.fst) = _
          rw [List.filterMap_eq_map, List.zipIdx_map_fst]
      | succ index =>
          have next := ih index (base + 1)
          rw [Nat.add_right_comm, Nat.add_assoc] at next
          rw [List.filterMap_cons_some (b := item) (by simp), next, List.eraseIdx_cons_succ]

theorem otherPartitions_some (set : PartitionSet) (index : Nat) :
    set.otherPartitions (some index) = set.partitions.eraseIdx index := by
  have erased := filterMap_zipIdx_eraseIdx set.partitions index 0
  rwa [Nat.zero_add] at erased

end PartitionSet

/-! ## Laid-out sets -/

/-- A span of whole sectors. -/
theorem span_of_sectors {p : Partition} {startLba sectors endLba : UInt64}
    (start : p.start.toNat = startLba.toNat * 512) (length : p.length = sectors * sectorSize)
    (positive : 0 < sectors.toNat) (stop : checkedAdd startLba (sectors - 1) = some endLba)
    (bounded : endLba.toNat + 1 < 2 ^ 55) :
    p.length.toNat = sectors.toNat * 512 ∧
      endLba.toNat + 1 = startLba.toNat + sectors.toNat ∧ p.span = (startLba, endLba) := by
  have one : (1 : UInt64).toNat = 1 := rfl
  have ends := checkedAdd_eq_some.mp stop
  rw [toNat_sub_of_le (by omega), one] at ends
  have bytes : p.length.toNat = sectors.toNat * 512 := by
    rw [length, toNat_lba_mul (by omega)]
  obtain ⟨_, first, last⟩ := Partition.sectorSpan_eq_span (p := p) (by omega) (by omega)
  refine ⟨bytes, by omega, ?_⟩
  rw [Prod.ext_iff, ← UInt64.toNat_inj, ← UInt64.toNat_inj]
  exact ⟨by simp only; omega, by simp only; omega⟩

/-- A partition as the planner places it in a table of the given kind and range. -/
structure Partition.LaidOut (p : Partition) (kind : TableKind) (usable : UInt64 × UInt64) :
    Prop where
  length_pos : 0 < p.length.toNat
  start_aligned : p.start.toNat % 512 = 0
  length_aligned : p.length.toNat % 512 = 0
  first_le : usable.1.toNat ≤ p.start.toNat / 512
  end_le : (p.start.toNat + p.length.toNat - 1) / 512 ≤ usable.2.toNat
  slot : p.slot = none
  gpt : kind = .gpt → (∃ typeGuid attributes, p.kind = .gpt typeGuid attributes) ∧
    ∃ uuid, p.uuid = some uuid
  mbr : kind = .mbr → (∃ typeByte active, p.kind = .mbr typeByte active) ∧
    p.start.toNat / 512 < 2 ^ 32 ∧ p.length.toNat / 512 < 2 ^ 32

/-- What a set started empty keeps under every edit. -/
structure PartitionSet.FromScratch (set : PartitionSet) : Prop where
  reserved : set.reserved = []
  geometry : set.gptGeometry = GptGeometry.canonical
  laid : ∀ p ∈ set.partitions, p.LaidOut set.tableKind set.usableRange
  apart : (set.partitions.map Partition.span).Pairwise fun a b => ¬ SharesSector a b
  mbr_few : set.tableKind = .mbr → set.partitions.length ≤ MbrLayout.entryCount
  gpt_few : set.tableKind = .gpt → set.partitions.length ≤ set.gptGeometry.numEntries.toNat

/-! ## Edits keep a set laid out -/

theorem map_span_refresh (set : PartitionSet) :
    set.refreshOverlapIssues.partitions.map Partition.span = set.partitions.map Partition.span := by
  have same := congrArg (List.map Partition.span) (PartitionSet.map_withoutIssues_refresh set)
  rwa [List.map_map, List.map_map] at same

theorem length_refresh (set : PartitionSet) :
    set.refreshOverlapIssues.partitions.length = set.partitions.length := by
  have same := congrArg List.length (PartitionSet.map_withoutIssues_refresh set)
  rwa [List.length_map, List.length_map] at same

theorem usableRange_of_sameTable {set other : PartitionSet} (same : Edit.SameTable set other) :
    other.usableRange = set.usableRange := by
  simp only [PartitionSet.usableRange, same.tableKind, same.diskSize, same.gptGeometry]

theorem Partition.laidOut_withoutIssues {kind : TableKind} {usable : UInt64 × UInt64}
    (p : Partition) : p.withoutIssues.LaidOut kind usable ↔ p.LaidOut kind usable :=
  ⟨fun ⟨a, b, c, d, e, f, g, h⟩ => ⟨a, b, c, d, e, f, g, h⟩,
    fun ⟨a, b, c, d, e, f, g, h⟩ => ⟨a, b, c, d, e, f, g, h⟩⟩

/-- A list with one item changed, up to order. -/
theorem modify_perm {α : Type} {items : List α} {index : Nat} {item : α} (f : α → α)
    (found : items[index]? = some item) :
    (items.modify index f).Perm (f item :: items.eraseIdx index) ∧
      items.Perm (item :: items.eraseIdx index) := by
  obtain ⟨bound, rfl⟩ := List.getElem?_eq_some_iff.mp found
  rw [List.eraseIdx_eq_take_drop_succ]
  constructor
  · rw [List.modify_eq_take_cons_drop bound]
    exact List.perm_middle
  · conv_lhs => rw [← List.take_append_drop index items, List.drop_eq_getElem_cons bound]
    exact List.perm_middle

namespace PartitionSet

variable {set : PartitionSet}

/-- Two rewritings of one fact: sharing no sector is symmetric. -/
theorem apart_perm {first second : List Partition} (perm : first.Perm second) :
    ((first.map Partition.span).Pairwise fun a b => ¬ SharesSector a b) ↔
      (second.map Partition.span).Pairwise fun a b => ¬ SharesSector a b :=
  (perm.map Partition.span).pairwise_iff fun unshared shared => unshared shared.symm

/-- A placed partition is laid out and keeps apart from the others. -/
theorem laidOut_of_placed {startHint : Option UInt64} {sectors : UInt64}
    {typeId : PartitionTypeId} {p : Partition} {startLba endLba : UInt64}
    (placed : Placed set startHint sectors typeId p startLba endLba)
    (positive : 0 < sectors.toNat) :
    p.LaidOut set.tableKind set.usableRange ∧
      ∀ q ∈ set.partitions, ¬ SharesSector q.span p.span := by
  have bounded := set.usableRange_lt
  have range := placed.range
  have inside := placed.inside
  have one : (1 : UInt64).toNat = 1 := rfl
  have ends := checkedAdd_eq_some.mp placed.stop
  rw [UInt64.le_iff_toNat_le] at range inside
  have start : p.start.toNat = startLba.toNat * 512 := by
    rw [placed.start, toNat_lba_mul (by omega)]
  obtain ⟨length, stop, span⟩ := span_of_sectors start placed.length positive placed.stop
    (by omega)
  have after := chooseStart_ge (by omega) placed.chosen
  constructor
  · refine ⟨by omega, by omega, by omega, by omega, by omega, placed.slot, fun gpt => ?_,
      fun mbr => ?_⟩
    · have kind := placed.kind
      unfold newKind at kind
      rw [gpt] at kind
      obtain ⟨typeGuid, _, made⟩ := bind_eq_ok.mp kind
      exact ⟨⟨typeGuid, 0, (Except.ok.inj made).symm⟩, placed.uuid gpt⟩
    · have kind := placed.kind
      have narrow := placed.narrow mbr
      have largest : mbrLbaMax.toNat = 2 ^ 32 - 1 := rfl
      rw [UInt64.le_iff_toNat_le, UInt64.le_iff_toNat_le] at narrow
      unfold newKind at kind
      rw [mbr] at kind
      obtain ⟨typeByte, _, made⟩ := bind_eq_ok.mp kind
      exact ⟨⟨typeByte, false, (Except.ok.inj made).symm⟩, by omega, by omega⟩
  · intro q member shares
    obtain ⟨spans, computed, clear⟩ := placed.clear
    have occupied := span_mem_occupiedSpans computed
      (by rw [otherPartitions_none]; exact member)
    rw [span] at shares
    exact clear q.span occupied ⟨shares.2, shares.1⟩

/-- A resized partition is laid out and keeps apart from the others. -/
theorem laidOut_of_resized {index : Nat} {sectors : UInt64} {p : Partition} {endLba : UInt64}
    (resized : Resized set index sectors p endLba) (positive : 0 < sectors.toNat)
    (laid : p.LaidOut set.tableKind set.usableRange) :
    (setLength sectors p).LaidOut set.tableKind set.usableRange ∧
      ∀ q ∈ set.partitions.eraseIdx index, ¬ SharesSector q.span (setLength sectors p).span := by
  have bounded := set.usableRange_lt
  have inside := resized.inside
  rw [UInt64.le_iff_toNat_le] at inside
  have lba : (p.start / sectorSize).toNat = p.start.toNat / 512 := by
    rw [UInt64.toNat_div, toNat_sectorSize]
  have aligned := laid.start_aligned
  have first := laid.first_le
  have start : (setLength sectors p).start.toNat = (p.start / sectorSize).toNat * 512 := by
    change p.start.toNat = _
    omega
  have same : (setLength sectors p).start.toNat = p.start.toNat := rfl
  obtain ⟨length, stop, span⟩ := span_of_sectors start (show (setLength sectors p).length = _
    from rfl) positive resized.stop (by omega)
  constructor
  · refine ⟨by omega, by omega, by omega, by omega, by omega, laid.slot, laid.gpt,
      fun mbr => ?_⟩
    have narrow := resized.narrow mbr
    have largest : mbrLbaMax.toNat = 2 ^ 32 - 1 := rfl
    have old := laid.mbr mbr
    rw [UInt64.le_iff_toNat_le] at narrow
    exact ⟨old.1, by omega, by omega⟩
  · intro q member shares
    obtain ⟨spans, computed, clear⟩ := resized.clear
    have occupied := span_mem_occupiedSpans computed
      (by rw [otherPartitions_some]; exact member)
    rw [span] at shares
    exact clear q.span occupied ⟨shares.2, shares.1⟩

theorem FromScratch.append (held : set.FromScratch) {p : Partition}
    (laid : p.LaidOut set.tableKind set.usableRange)
    (clear : ∀ q ∈ set.partitions, ¬ SharesSector q.span p.span)
    (mbrRoom : set.tableKind = .mbr → set.partitions.length < MbrLayout.entryCount)
    (gptRoom : set.tableKind = .gpt →
      set.partitions.length < set.gptGeometry.numEntries.toNat) :
    FromScratch { set with partitions := set.partitions ++ [p] } where
  reserved := held.reserved
  geometry := held.geometry
  laid := by
    intro q member
    rcases List.mem_append.mp member with old | new
    · exact held.laid q old
    · rw [List.mem_singleton.mp new]
      exact laid
  apart := by
    rw [List.map_append, List.pairwise_append]
    refine ⟨held.apart, List.pairwise_singleton _ _, ?_⟩
    rintro a old b new
    obtain ⟨q, member, rfl⟩ := List.mem_map.mp old
    obtain ⟨r, single, rfl⟩ := List.mem_map.mp new
    rw [List.mem_singleton.mp single]
    exact clear q member
  mbr_few := fun mbr => by
    rw [List.length_append]
    exact mbrRoom mbr
  gpt_few := fun gpt => by
    rw [List.length_append]
    exact gptRoom gpt

/-- Any list of laid-out partitions that keep apart will do, if it is no longer. -/
theorem FromScratch.replace (held : set.FromScratch) {partitions : List Partition}
    (laid : ∀ p ∈ partitions, p.LaidOut set.tableKind set.usableRange)
    (apart : (partitions.map Partition.span).Pairwise fun a b => ¬ SharesSector a b)
    (shorter : partitions.length ≤ set.partitions.length) :
    FromScratch { set with partitions }.refreshOverlapIssues where
  reserved := by
    rw [reserved_refresh]
    exact held.reserved
  geometry := by
    rw [gptGeometry_refresh]
    exact held.geometry
  laid := by
    have range : ({ set with partitions } : PartitionSet).refreshOverlapIssues.usableRange =
        set.usableRange :=
      usableRange_of_sameTable ⟨by simp, by simp, by simp, by simp⟩
    rw [tableKind_refresh, range]
    exact forall_refresh _ Partition.laidOut_withoutIssues laid
  apart := by
    rw [map_span_refresh]
    exact apart
  mbr_few := by
    rw [tableKind_refresh, length_refresh]
    exact fun mbr => Nat.le_trans shorter (held.mbr_few mbr)
  gpt_few := by
    rw [tableKind_refresh, gptGeometry_refresh, length_refresh]
    exact fun gpt => Nat.le_trans shorter (held.gpt_few gpt)

theorem fromScratch_apply (held : set.FromScratch) (edit : Edit) :
    (edit.apply set).FromScratch := by
  rcases Edit.apply_cases set edit with same | ⟨_, _, _, _, _, part, _, placed, same⟩ |
    ⟨index, same⟩ | ⟨_, _, index, sectors, computed, same⟩
  · rw [same]
    exact held
  · rw [same]
    obtain ⟨nonzero, startLba, endLba, found⟩ := place_eq_ok placed
    obtain ⟨laid, clear⟩ := laidOut_of_placed found (sectors_pos nonzero)
    refine held.append laid clear (fun mbr => ?_) found.gpt_room
    have room := found.mbr_room mbr
    rwa [held.reserved, List.length_nil, Nat.add_zero] at room
  · rw [same]
    refine held.replace (fun p member => held.laid p (List.mem_of_mem_eraseIdx member)) ?_
      (List.length_eraseIdx_le _ _)
    exact held.apart.sublist ((List.eraseIdx_sublist _ _).map _)
  · rw [same]
    obtain ⟨nonzero, rfl, p, endLba, found⟩ := resized_eq_ok computed
    have member : p ∈ set.partitions := List.mem_of_getElem? found.found
    obtain ⟨laid, clear⟩ := laidOut_of_resized found (sectors_pos nonzero) (held.laid p member)
    obtain ⟨changed, kept⟩ := modify_perm (setLength _) found.found
    refine held.replace (fun q present => ?_) ?_ (Nat.le_of_eq (List.length_modify ..))
    · rcases List.mem_cons.mp (changed.mem_iff.mp present) with rfl | other
      · exact laid
      · exact held.laid q (List.mem_of_mem_eraseIdx other)
    · rw [apart_perm changed, List.map_cons, List.pairwise_cons]
      have apart := (apart_perm kept).mp held.apart
      rw [List.map_cons, List.pairwise_cons] at apart
      refine ⟨fun span other shares => ?_, apart.2⟩
      obtain ⟨q, present, rfl⟩ := List.mem_map.mp other
      exact clear q present shares.symm

theorem fromScratch_empty (kind : TableKind) (size : UInt64) (diskGuid : Guid)
    (tails : EntryTails) :
    FromScratch ⟨kind, [], size, diskGuid, tails, GptGeometry.canonical, []⟩ where
  reserved := rfl
  geometry := rfl
  laid := by simp
  apart := .nil
  mbr_few := by simp
  gpt_few := by simp

end PartitionSet

end DiskPartitions
