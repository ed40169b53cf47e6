import DiskPartitions.TrappingEdits
import Mathlib.Data.Set.BooleanAlgebra
import Mathlib.Order.CompletePartialOrder

/-!
# What an edit promises about sectors

A call that succeeds leaves every other partition as it was, but for its overlap
bit, and puts the partition it adds or resizes on usable sectors nobody else has.
One case breaks the promise: `resize` counts sectors from the one its partition
starts in, so a partition that starts inside a sector reaches one sector further than
was checked.
-/

namespace DiskPartitions

open CheckedWords Refusals FallibleState

/-! ## Sectors -/

namespace Partition

/-- The sectors with a byte of the partition in them. -/
def sectors (p : Partition) : Set Nat :=
  { sector | ∃ byte, p.start.toNat ≤ byte ∧ byte < p.start.toNat + p.length.toNat ∧
    sector = byte / 512 }

theorem mem_sectors {p : Partition} {sector : Nat} :
    sector ∈ p.sectors ↔ 0 < p.length.toNat ∧ p.start.toNat / 512 ≤ sector ∧
      sector ≤ (p.start.toNat + p.length.toNat - 1) / 512 := by
  constructor
  · rintro ⟨byte, after, before, rfl⟩
    exact ⟨by omega, Nat.div_le_div_right after, Nat.div_le_div_right (by omega)⟩
  · rintro ⟨positive, first, last⟩
    -- The first byte of the sector, or of the partition when that comes later.
    refine ⟨max p.start.toNat (sector * 512), by omega, by omega, ?_⟩
    omega

theorem mem_sectors_of_span {p : Partition} {span : UInt64 × UInt64}
    (computed : p.sectorSpan = .ok span) {sector : Nat} :
    sector ∈ p.sectors ↔ span.1.toNat ≤ sector ∧ sector ≤ span.2.toNat := by
  obtain ⟨positive, _, first, last⟩ := sectorSpan_eq_ok.mp computed
  rw [mem_sectors, first, last]
  exact and_iff_right positive

/-- The partition with its overlap bit cleared. -/
def withoutOverlap (p : Partition) : Partition :=
  { p with issues := p.issues &&& ~~~ EntryIssue.overlapsAnother }

theorem sectors_withoutOverlap (p : Partition) : p.withoutOverlap.sectors = p.sectors := rfl

theorem withoutOverlap_markOverlap (overlaps : Bool) (p : Partition) :
    (PartitionSet.markOverlap overlaps p).withoutOverlap = p.withoutOverlap := by
  have cleared (bits mask : UInt32) : (bits ||| mask) &&& ~~~ mask = bits &&& ~~~ mask := by
    apply UInt32.eq_of_toBitVec_eq
    apply BitVec.eq_of_getLsbD_eq
    intro i bound
    simp only [UInt32.toBitVec_and, UInt32.toBitVec_or, BitVec.getLsbD_and, BitVec.getLsbD_or,
      UInt32.toBitVec_not, BitVec.getLsbD_not]
    cases mask.toBitVec.getLsbD i <;> simp
  cases overlaps with
  | true => simp only [PartitionSet.markOverlap, withoutOverlap, if_true, cleared]
  | false =>
      simp only [PartitionSet.markOverlap, withoutOverlap, Bool.false_eq_true, if_false,
        UInt32.and_assoc, UInt32.and_self]

end Partition

/-- The sectors a reserved entry claims. -/
def ReservedEntry.sectors (r : ReservedEntry) : Set Nat :=
  { sector | ∃ span ∈ r.span, span.1.toNat ≤ sector ∧ sector ≤ span.2.toNat }

/-- A byte count rounded up to the next 1 MiB. -/
def roundedUp (length : UInt64) : Nat := (length.toNat + (2 ^ 20 - 1)) / 2 ^ 20 * 2 ^ 20

/-- The sectors a request is rounded to. -/
theorem toNat_requested (length : UInt64) :
    (alignUp (divCeil length sectorSize) alignmentSectors).toNat * 512 = roundedUp length := by
  have bound := length.toNat_lt
  have sectors := toNat_divCeil_sector length
  rw [toNat_alignUp_eq (by omega), sectors, roundedUp]
  omega

/-! ## The promise -/

namespace Edit

/-- The partition a call removes or resizes, by its place before the call. -/
def target (set : PartitionSet) : Edit → Option Nat
  | add _ _ _ _ _ => none
  | remove named => (set.resolve named).toOption
  | resize named _ => (set.resolve named).toOption

/-- The partition a call adds or resizes, by its place after the call. -/
def touched (set : PartitionSet) : Edit → Option Nat
  | add _ _ _ _ _ => some set.partitions.length
  | remove _ => none
  | resize named _ => (set.resolve named).toOption

/-- How long the caller wants the partition the call adds or resizes. -/
def request : Edit → UInt64
  | add _ length _ _ _ => length
  | remove _ => 0
  | resize _ newLength => newLength

/-- Where the partition in place `i` after the call was before it. -/
def origin (set : PartitionSet) (edit : Edit) (i : Nat) : Option Nat :=
  match edit with
  | add _ _ _ _ _ => if i < set.partitions.length then some i else none
  | remove named =>
      match set.resolve named with
      | .ok index => some (if i < index then i else i + 1)
      | .error _ => some i
  | resize _ _ => some i

/-- The call adds a partition. -/
def Adds : Edit → Prop
  | add _ _ _ _ _ => True
  | _ => False

end Edit

/-- The list without the item in the given place. -/
def others (partitions : List Partition) (skip : Option Nat) : List Partition :=
  skip.elim partitions partitions.eraseIdx

/-- What is promised of the partition a call adds or resizes. -/
structure WellPlaced (set after : PartitionSet) (edit : Edit) (i : Nat) (p : Partition) :
    Prop where
  length : p.length.toNat = roundedUp edit.request
  inside : ∀ sector ∈ p.sectors, sector ≤ set.usableRange.2.toNat
  apart : ∀ j q, j ≠ i → after.partitions[j]? = some q → Disjoint p.sectors q.sectors
  reserved : set.tableKind = .mbr → ∀ r ∈ set.reserved, Disjoint p.sectors r.sectors
  start : edit.Adds → p.start.toNat % 2 ^ 20 = 0 ∧ set.usableRange.1.toNat * 512 ≤ p.start.toNat

/-- What is promised of a call that succeeds. -/
structure KeepsApart (set after : PartitionSet) (edit : Edit) : Prop where
  others : (others after.partitions (edit.touched set)).map Partition.withoutOverlap =
    (others set.partitions (edit.target set)).map Partition.withoutOverlap
  overlaps : ∀ i j p q, i ≠ j → after.partitions[i]? = some p → after.partitions[j]? = some q →
    ¬ Disjoint p.sectors q.sectors →
    ∃ i' j' p' q', edit.origin set i = some i' ∧ edit.origin set j = some j' ∧
      set.partitions[i']? = some p' ∧ set.partitions[j']? = some q' ∧
      ¬ Disjoint p'.sectors q'.sectors
  placed : ∀ i, edit.touched set = some i →
    ∃ p, after.partitions[i]? = some p ∧ WellPlaced set after edit i p

/-- What is promised of every call: no word operation overflows, a failure changes
nothing, and a success keeps the partitions apart. -/
structure Edit.Sound (set : PartitionSet) (edit : Edit) : Prop where
  exact : edit.callTrapping set = some (edit.call set)
  failed : ∀ error after, edit.call set = (.error error, after) → after = set
  succeeded : ∀ after, edit.call set = (.ok (), after) → KeepsApart set after edit

/-- A usable sector that belongs to no partition but the one at `index`, and to no
reserved entry. -/
structure FreeSector (set : PartitionSet) (index sector : Nat) : Prop where
  usable : sector ≤ set.usableRange.2.toNat
  partitions : ∀ j q, j ≠ index → set.partitions[j]? = some q → sector ∉ q.sectors
  reserved : set.tableKind = .mbr → ∀ r ∈ set.reserved, sector ∉ r.sectors

/-- Whenever the call is a resize that succeeds on a partition that starts inside a
sector, the sector after the ones it counts is free. -/
def Edit.ExtraSectorFree (set : PartitionSet) (edit : Edit) : Prop :=
  ∀ named newLength index p, edit = .resize named newLength → set.resolve named = .ok index →
    set.partitions[index]? = some p → (edit.call set).1 = .ok () → p.start.toNat % 512 ≠ 0 →
    FreeSector set index (p.start.toNat / 512 + roundedUp newLength / 512)

/-! ## What the checks leave -/

section Checks

variable {set : PartitionSet} {skip : Option Nat} {spans : List (UInt64 × UInt64)}
  (occupied : set.occupiedSpans skip = .ok spans)

include occupied

theorem sectorSpan_of_occupied {q : Partition} (member : q ∈ set.otherPartitions skip) :
    ∃ span ∈ spans, q.sectorSpan = .ok span := by
  obtain ⟨own, mapped, rest⟩ := bind_eq_ok.mp occupied
  obtain ⟨span, listed, computed⟩ := Slices.exists_of_mem_right (mapM_eq_ok mapped).flip member
  cases rest
  refine ⟨span, ?_, computed⟩
  split
  · exact List.mem_append_left _ listed
  · exact listed

theorem reserved_span_occupied (mbr : set.tableKind = .mbr) {r : ReservedEntry}
    (member : r ∈ set.reserved) {span : UInt64 × UInt64} (claimed : r.span = some span) :
    span ∈ spans := by
  obtain ⟨own, _, rest⟩ := bind_eq_ok.mp occupied
  cases rest
  rw [if_pos mbr]
  exact List.mem_append_right _ (List.mem_filterMap.mpr ⟨r, member, claimed⟩)

/-- A sector of a checked range belongs to nobody else. -/
theorem free_of_clear {first last : UInt64}
    (clear : ∀ span ∈ spans, ¬ (first ≤ span.2 ∧ span.1 ≤ last)) {sector : Nat}
    (inside : first.toNat ≤ sector ∧ sector ≤ last.toNat) :
    (∀ q ∈ set.otherPartitions skip, sector ∉ q.sectors) ∧
      (set.tableKind = .mbr → ∀ r ∈ set.reserved, sector ∉ r.sectors) := by
  constructor
  · intro q member shared
    obtain ⟨span, listed, computed⟩ := sectorSpan_of_occupied occupied member
    rw [Partition.mem_sectors_of_span computed] at shared
    refine clear span listed ⟨?_, ?_⟩
    · rw [UInt64.le_iff_toNat_le]
      omega
    · rw [UInt64.le_iff_toNat_le]
      omega
  · rintro mbr r member ⟨span, claimed, bounds⟩
    refine clear span (reserved_span_occupied occupied mbr member claimed) ⟨?_, ?_⟩
    · rw [UInt64.le_iff_toNat_le]
      omega
    · rw [UInt64.le_iff_toNat_le]
      omega

end Checks

namespace PartitionSet

variable {set : PartitionSet}

/-- After a refresh every partition is in its place, but for its overlap bit. -/
theorem getElem?_refresh (set : PartitionSet) (i : Nat) :
    set.refreshOverlapIssues.partitions[i]?.map Partition.withoutOverlap =
      set.partitions[i]?.map Partition.withoutOverlap := by
  rw [← List.getElem?_map, ← List.getElem?_map,
    map_refresh Partition.withoutOverlap_markOverlap]

theorem resolve_of_resized {named : PartitionRef} {newLength : UInt64} {index : Nat}
    {sectors : UInt64} (computed : set.resized named newLength = .ok (index, sectors)) :
    set.resolve named = .ok index := by
  unfold resized at computed
  obtain ⟨_, computed⟩ := refuseIf_bind_eq_ok.mp computed
  obtain ⟨found, resolved, computed⟩ := bind_eq_ok.mp computed
  obtain ⟨_, _, computed⟩ := bind_eq_ok.mp computed
  obtain ⟨_, _, computed⟩ := bind_eq_ok.mp computed
  obtain ⟨_, computed⟩ := refuseIf_bind_eq_ok.mp computed
  obtain ⟨_, computed⟩ := refuseIf_bind_eq_ok.mp computed
  obtain ⟨_, _, computed⟩ := bind_eq_ok.mp computed
  obtain ⟨_, computed⟩ := refuseIf_bind_eq_ok.mp computed
  cases computed
  exact resolved

end PartitionSet

/-- Partitions with the same fields have the same sectors. -/
theorem sectors_eq_of_withoutOverlap {p q : Partition}
    (same : p.withoutOverlap = q.withoutOverlap) : p.sectors = q.sectors := by
  rw [← p.sectors_withoutOverlap, same, q.sectors_withoutOverlap]

/-- When the partitions a call does not touch are where they were and the one it
touches meets nobody, no overlap is new. -/
theorem overlaps_of_placed {set after : PartitionSet} {edit : Edit}
    (kept : ∀ i p, after.partitions[i]? = some p → edit.touched set ≠ some i →
      ∃ i' p', edit.origin set i = some i' ∧ set.partitions[i']? = some p' ∧
        p'.sectors = p.sectors)
    (placed : ∀ i p, edit.touched set = some i → after.partitions[i]? = some p →
      ∀ j q, j ≠ i → after.partitions[j]? = some q → Disjoint p.sectors q.sectors)
    {i j : Nat} {p q : Partition} (apart : i ≠ j) (first : after.partitions[i]? = some p)
    (second : after.partitions[j]? = some q) (shared : ¬ Disjoint p.sectors q.sectors) :
    ∃ i' j' p' q', edit.origin set i = some i' ∧ edit.origin set j = some j' ∧
      set.partitions[i']? = some p' ∧ set.partitions[j']? = some q' ∧
      ¬ Disjoint p'.sectors q'.sectors := by
  have firstKept : edit.touched set ≠ some i := fun touched =>
    shared (placed i p touched first j q apart.symm second)
  have secondKept : edit.touched set ≠ some j := fun touched =>
    shared (placed j q touched second i p apart first).symm
  obtain ⟨i', p', fromI, foundI, sameI⟩ := kept i p first firstKept
  obtain ⟨j', q', fromJ, foundJ, sameJ⟩ := kept j q second secondKept
  exact ⟨i', j', p', q', fromI, fromJ, foundI, foundJ, by rwa [sameI, sameJ]⟩

/-! ## The three calls -/

namespace PartitionSet

variable {set : PartitionSet}

theorem toNat_alignUp_mod {value : UInt64} (small : value.toNat < 2 ^ 60) :
    (alignUp value alignmentSectors).toNat % 2048 = 0 := by
  rw [toNat_alignUp_eq small]
  exact Nat.mul_mod_left _ _

theorem walkSpans_mod {lengthSectors lastUsable cursor start : UInt64}
    {spans : List (UInt64 × UInt64)} (bounded : ∀ span ∈ spans, span.2.toNat < 2 ^ 55)
    (aligned : cursor.toNat % 2048 = 0)
    (found : walkSpans lengthSectors lastUsable spans cursor = .ok start) :
    start.toNat % 2048 = 0 := by
  induction spans generalizing cursor with
  | nil =>
      unfold walkSpans at found
      split at found
      · cases found
        exact aligned
      · cases found
  | cons span spans ih =>
      have inside := bounded span (by simp)
      have one : (1 : UInt64).toNat = 1 := rfl
      have past : (span.2 + 1).toNat = span.2.toNat + 1 := toNat_add_of_lt (by omega)
      simp only [walkSpans] at found
      split at found
      · cases found
        exact aligned
      · refine ih (fun other member => bounded other (by simp [member])) ?_ found
        rw [UInt64.max_def]
        split
        · exact toNat_alignUp_mod (by omega)
        · exact aligned

/-- A new partition starts on a 1 MiB boundary. -/
theorem chooseStart_mod {startHint : Option UInt64} {lengthSectors first last start : UInt64}
    (small : first.toNat < 2 ^ 55)
    (chosen : set.chooseStart startHint lengthSectors first last = .ok start) :
    start.toNat % 2048 = 0 := by
  unfold chooseStart at chosen
  split at chosen
  next byte =>
    cases chosen
    have bound := byte.toNat_lt
    have sectors := toNat_divCeil_sector byte
    refine toNat_alignUp_mod ?_
    rw [UInt64.max_def]
    split
    · omega
    · omega
  · obtain ⟨spans, occupied, found⟩ := bind_eq_ok.mp chosen
    refine walkSpans_mod (fun span member => ?_) (toNat_alignUp_mod (by omega)) found
    exact occupiedSpans_lt occupied span ((List.perm_insertionSort _ _).mem_iff.mp member)

end PartitionSet

section Calls

open PartitionSet

variable {set : PartitionSet}

/-- A placed partition covers the sectors its checks looked at. -/
theorem wellPlaced_of_placed {startHint : Option UInt64} {length : UInt64}
    {typeId : PartitionTypeId} {label : Option String} {drawn : Bytes16} {part : Partition}
    (placed : set.place startHint length typeId label drawn = .ok part) :
    WellPlaced set { set with partitions := set.partitions ++ [part] }
      (.add startHint length typeId label drawn) set.partitions.length part := by
  obtain ⟨nonzero, startLba, endLba, found⟩ := place_eq_ok placed
  have positive := sectors_pos nonzero
  have last := set.usableRange_lt
  have range := found.range
  have inside := found.inside
  rw [UInt64.le_iff_toNat_le] at range inside
  have one : (1 : UInt64).toNat = 1 := rfl
  have stop := checkedAdd_eq_some.mp found.stop
  have start : part.start.toNat = startLba.toNat * 512 := by
    rw [found.start, toNat_lba_mul (by omega)]
  obtain ⟨bytes, ends, _⟩ := span_of_sectors start found.length positive found.stop (by omega)
  have covered : ∀ sector ∈ part.sectors, startLba.toNat ≤ sector ∧ sector ≤ endLba.toNat := by
    intro sector member
    rw [Partition.mem_sectors] at member
    omega
  obtain ⟨spans, occupied, clear⟩ := found.clear
  exact {
    length := bytes.trans (toNat_requested length)
    inside := fun sector member => Nat.le_trans (covered sector member).2 inside
    apart := by
      intro j q unequal listed
      rw [List.getElem?_append] at listed
      split at listed
      · rw [Set.disjoint_left]
        intro sector member shared
        refine (free_of_clear occupied clear (covered sector member)).1 q ?_ shared
        rw [otherPartitions_none]
        exact List.mem_of_getElem? listed
      next past =>
        have beyond : 0 < j - set.partitions.length := by omega
        rw [List.getElem?_eq_none (by rw [List.length_singleton]; omega)] at listed
        cases listed
    reserved := by
      intro mbr r member
      rw [Set.disjoint_left]
      intro sector own shared
      exact (free_of_clear occupied clear (covered sector own)).2 mbr r member shared
    start := by
      intro _
      have first := chooseStart_ge (by omega) found.chosen
      have aligned := chooseStart_mod (by omega) found.chosen
      omega }

theorem keepsApart_add {startHint : Option UInt64} {length : UInt64} {typeId : PartitionTypeId}
    {label : Option String} {drawn : Bytes16} {part : Partition}
    (placed : set.place startHint length typeId label drawn = .ok part) :
    KeepsApart set { set with partitions := set.partitions ++ [part] }
      (.add startHint length typeId label drawn) := by
  have fits := wellPlaced_of_placed placed
  have new : (set.partitions ++ [part])[set.partitions.length]? = some part := by simp
  have erased : (set.partitions ++ [part]).eraseIdx set.partitions.length = set.partitions := by
    rw [List.eraseIdx_append_of_length_le (Nat.le_refl _), Nat.sub_self, List.eraseIdx_zero,
      List.tail_cons, List.append_nil]
  refine ⟨?_, ?_, ?_⟩
  · exact congrArg (List.map Partition.withoutOverlap) erased
  · intro i j p q apart first second shared
    refine overlaps_of_placed ?_ ?_ apart first second shared
    · intro i p found untouched
      have listed : i < set.partitions.length := by
        have bound := (List.getElem?_eq_some_iff.mp found).1
        rw [List.length_append, List.length_singleton] at bound
        have unequal : set.partitions.length ≠ i := fun same => untouched (congrArg some same)
        omega
      rw [List.getElem?_append_left listed] at found
      exact ⟨i, p, if_pos listed, found, rfl⟩
    · intro i p touched found
      cases touched
      rw [new] at found
      cases found
      exact fits.apart
  · intro i touched
    cases touched
    exact ⟨part, new, fits⟩

theorem keepsApart_remove {named : PartitionRef} {index : Nat}
    (resolved : set.resolve named = .ok index) :
    KeepsApart set { set with
      partitions := set.partitions.eraseIdx index }.refreshOverlapIssues (.remove named) := by
  have target : (Edit.remove named).target set = some index := by
    rw [Edit.target, resolved]
    rfl
  refine ⟨?_, ?_, ?_⟩
  · rw [target]
    exact map_refresh Partition.withoutOverlap_markOverlap _
  · intro i j p q apart first second shared
    refine overlaps_of_placed ?_ ?_ apart first second shared
    · intro i p found _
      have kept := getElem?_refresh { set with
        partitions := set.partitions.eraseIdx index } i
      rw [found, Option.map_some, eq_comm, Option.map_eq_some_iff] at kept
      obtain ⟨q, listed, same⟩ := kept
      rw [List.getElem?_eraseIdx] at listed
      refine ⟨if i < index then i else i + 1, q, ?_, ?_, sectors_eq_of_withoutOverlap same⟩
      · rw [Edit.origin, resolved]
      · split
        next before => rwa [if_pos before] at listed
        next after => rwa [if_neg after] at listed
    · intro i p touched
      cases touched
  · intro i touched
    cases touched

/-- The set a resize leaves. -/
def resizedSet (set : PartitionSet) (index : Nat) (sectors : UInt64) : PartitionSet :=
  { set with
    partitions := set.partitions.modify index (setLength sectors) }.refreshOverlapIssues

/-- Everybody is where they were, the resized partition with its new length. -/
theorem getElem?_resizedSet (set : PartitionSet) (index : Nat) (sectors : UInt64) (j : Nat) :
    (resizedSet set index sectors).partitions[j]?.map Partition.withoutOverlap =
      set.partitions[j]?.map fun p =>
        if j = index then (setLength sectors p).withoutOverlap else p.withoutOverlap := by
  have kept := getElem?_refresh { set with
    partitions := set.partitions.modify index (setLength sectors) } j
  rw [resizedSet, kept, List.getElem?_modify, Option.map_eq_map, Option.map_map]
  apply Option.map_congr
  intro p _
  by_cases here : j = index
  · simp only [Function.comp_apply, if_pos here, if_pos here.symm]
  · simp only [Function.comp_apply, if_neg here, if_neg (Ne.symm here)]

theorem others_resizedSet (set : PartitionSet) (index : Nat) (sectors : UInt64) :
    ((resizedSet set index sectors).partitions.eraseIdx index).map Partition.withoutOverlap =
      (set.partitions.eraseIdx index).map Partition.withoutOverlap := by
  apply List.ext_getElem?
  intro j
  rw [List.getElem?_map, List.getElem?_map, List.getElem?_eraseIdx, List.getElem?_eraseIdx]
  split
  next before =>
    rw [getElem?_resizedSet]
    exact Option.map_congr fun p _ => if_neg (by omega)
  next after =>
    rw [getElem?_resizedSet]
    exact Option.map_congr fun p _ => if_neg (by omega)

section Resizing

variable {named : PartitionRef} {newLength sectors : UInt64} {index : Nat}
  (computed : set.resized named newLength = .ok (index, sectors))

include computed

/-- What the checks of a resize say: the sectors it counts are free. -/
theorem free_of_resized :
    ∃ p, set.partitions[index]? = some p ∧ 0 < sectors.toNat ∧
      sectors.toNat * 512 = roundedUp newLength ∧
      p.start.toNat / 512 + sectors.toNat < 2 ^ 55 ∧
      ∀ sector, p.start.toNat / 512 ≤ sector → sector < p.start.toNat / 512 + sectors.toNat →
        FreeSector set index sector := by
  obtain ⟨nonzero, rfl, p, endLba, found⟩ := resized_eq_ok computed
  have positive := sectors_pos nonzero
  have last := set.usableRange_lt
  have inside := found.inside
  rw [UInt64.le_iff_toNat_le] at inside
  have one : (1 : UInt64).toNat = 1 := rfl
  have lba : (p.start / sectorSize).toNat = p.start.toNat / 512 := by
    rw [UInt64.toNat_div, toNat_sectorSize]
  have ends := checkedAdd_eq_some.mp found.stop
  rw [toNat_sub_of_le (by omega), one] at ends
  obtain ⟨spans, occupied, clear⟩ := found.clear
  refine ⟨p, found.found, positive, toNat_requested newLength, by omega, fun sector first past => ?_⟩
  obtain ⟨own, reserved⟩ := free_of_clear occupied clear (by omega : (p.start / sectorSize).toNat ≤
    sector ∧ sector ≤ endLba.toNat)
  refine ⟨by omega, fun j q unequal listed => own q ?_, reserved⟩
  rw [otherPartitions_some, List.mem_eraseIdx_iff_getElem?]
  exact ⟨j, unequal, listed⟩

end Resizing

/-- The sectors of a partition of so many whole sectors: those, and one more when it
starts inside a sector. -/
theorem mem_sectors_of_count {q : Partition} {count : Nat} (positive : 0 < count)
    (length : q.length.toNat = count * 512) {sector : Nat} :
    sector ∈ q.sectors ↔ q.start.toNat / 512 ≤ sector ∧
      (sector < q.start.toNat / 512 + count ∨
        q.start.toNat % 512 ≠ 0 ∧ sector = q.start.toNat / 512 + count) := by
  rw [Partition.mem_sectors]
  omega

section Resizing

variable {sectors : UInt64} {index : Nat} {p : Partition}

/-- The resized partition as the call leaves it. -/
theorem getElem?_resizedSet_self (listed : set.partitions[index]? = some p)
    (bounded : sectors.toNat < 2 ^ 55) :
    ∃ q, (resizedSet set index sectors).partitions[index]? = some q ∧ q.start = p.start ∧
      q.length.toNat = sectors.toNat * 512 := by
  have kept := getElem?_resizedSet set index sectors index
  rw [listed, Option.map_some, if_pos rfl, Option.map_eq_some_iff] at kept
  obtain ⟨q, placed, same⟩ := kept
  have start : q.withoutOverlap.start = (setLength sectors p).withoutOverlap.start := by
    rw [same]
  have length : q.withoutOverlap.length = (setLength sectors p).withoutOverlap.length := by
    rw [same]
  refine ⟨q, placed, start, ?_⟩
  change q.length = sectors * sectorSize at length
  rw [length, toNat_lba_mul bounded]

/-- Another partition after the call has the sectors it had before. -/
theorem sectors_of_resizedSet {j : Nat} {r : Partition} (unequal : j ≠ index)
    (present : (resizedSet set index sectors).partitions[j]? = some r) :
    ∃ old, set.partitions[j]? = some old ∧ old.sectors = r.sectors := by
  have kept := getElem?_resizedSet set index sectors j
  rw [present, Option.map_some, eq_comm, Option.map_eq_some_iff] at kept
  obtain ⟨old, before, unchanged⟩ := kept
  rw [if_neg unequal] at unchanged
  exact ⟨old, before, sectors_eq_of_withoutOverlap unchanged⟩

theorem exists_resizedSet {j : Nat} {old : Partition} (unequal : j ≠ index)
    (before : set.partitions[j]? = some old) :
    ∃ r, (resizedSet set index sectors).partitions[j]? = some r ∧ r.sectors = old.sectors := by
  have kept := getElem?_resizedSet set index sectors j
  rw [before, Option.map_some, if_neg unequal, Option.map_eq_some_iff] at kept
  obtain ⟨r, present, unchanged⟩ := kept
  exact ⟨r, present, sectors_eq_of_withoutOverlap unchanged⟩

end Resizing

/-- A resize puts its partition on free sectors when the extra one is free. -/
theorem wellPlaced_resized_iff {named : PartitionRef} {newLength sectors : UInt64} {index : Nat}
    (computed : set.resized named newLength = .ok (index, sectors)) {p : Partition}
    (listed : set.partitions[index]? = some p) :
    (∃ q, (resizedSet set index sectors).partitions[index]? = some q ∧
        WellPlaced set (resizedSet set index sectors) (.resize named newLength) index q) ↔
      (p.start.toNat % 512 ≠ 0 →
        FreeSector set index (p.start.toNat / 512 + roundedUp newLength / 512)) := by
  obtain ⟨_, found, positive, rounded, bounded, free⟩ := free_of_resized computed
  rw [listed] at found
  cases found
  obtain ⟨q, placed, start, length⟩ := getElem?_resizedSet_self listed
    (by omega : sectors.toNat < 2 ^ 55)
  have covered (sector : Nat) : sector ∈ q.sectors ↔ q.start.toNat / 512 ≤ sector ∧
      (sector < q.start.toNat / 512 + sectors.toNat ∨
        q.start.toNat % 512 ≠ 0 ∧ sector = q.start.toNat / 512 + sectors.toNat) :=
    mem_sectors_of_count positive length
  rw [start] at covered
  have extra : p.start.toNat / 512 + roundedUp newLength / 512 =
      p.start.toNat / 512 + sectors.toNat := by
    rw [← rounded]
    omega
  rw [extra]
  constructor
  · rintro ⟨q', again, fits⟩ inexact
    rw [placed] at again
    cases again
    have member : p.start.toNat / 512 + sectors.toNat ∈ q.sectors :=
      (covered _).mpr ⟨by omega, .inr ⟨inexact, rfl⟩⟩
    refine ⟨fits.inside _ member, fun j old unequal before shared => ?_,
      fun mbr r reserved => Set.disjoint_left.mp (fits.reserved mbr r reserved) member⟩
    obtain ⟨r, present, same⟩ : ∃ r, (resizedSet set index sectors).partitions[j]? = some r ∧
        r.sectors = old.sectors := exists_resizedSet unequal before
    rw [← same] at shared
    exact Set.disjoint_left.mp (fits.apart j r unequal present) member shared
  · intro extraFree
    have allFree : ∀ sector ∈ q.sectors, FreeSector set index sector := by
      intro sector member
      obtain ⟨first, counted | ⟨inexact, rfl⟩⟩ := (covered sector).mp member
      · exact free sector first counted
      · exact extraFree inexact
    refine ⟨q, placed, length.trans rounded, fun sector member => (allFree sector member).usable,
      fun j r unequal present => ?_, fun mbr r reserved => ?_, False.elim⟩
    · obtain ⟨old, before, same⟩ := sectors_of_resizedSet unequal present
      rw [Set.disjoint_left, ← same]
      exact fun sector member => (allFree sector member).partitions j old unequal before
    · rw [Set.disjoint_left]
      exact fun sector member => (allFree sector member).reserved mbr r reserved

theorem keepsApart_resize_iff {named : PartitionRef} {newLength sectors : UInt64} {index : Nat}
    (computed : set.resized named newLength = .ok (index, sectors)) {p : Partition}
    (listed : set.partitions[index]? = some p) :
    KeepsApart set (resizedSet set index sectors) (.resize named newLength) ↔
      (p.start.toNat % 512 ≠ 0 →
        FreeSector set index (p.start.toNat / 512 + roundedUp newLength / 512)) := by
  have resolved := resolve_of_resized computed
  have touched : (Edit.resize named newLength).touched set = some index := by
    rw [Edit.touched, resolved]
    rfl
  have target : (Edit.resize named newLength).target set = some index := by
    rw [Edit.target, resolved]
    rfl
  rw [← wellPlaced_resized_iff computed listed]
  constructor
  · intro keeps
    exact keeps.placed index touched
  · rintro ⟨q, placed, fits⟩
    refine ⟨?_, ?_, ?_⟩
    · rw [touched, target]
      exact others_resizedSet set index sectors
    · intro i j first second apart firstListed secondListed shared
      refine overlaps_of_placed (fun i r present untouched => ?_) (fun i r isTouched present => ?_)
        apart firstListed secondListed shared
      · have unequal : i ≠ index := fun same => untouched (by rw [touched, same])
        obtain ⟨old, before, same⟩ := sectors_of_resizedSet unequal present
        exact ⟨i, old, rfl, before, same⟩
      · rw [touched] at isTouched
        cases isTouched
        rw [placed] at present
        cases present
        exact fits.apart
    · intro i isTouched
      rw [touched] at isTouched
      cases isTouched
      exact ⟨q, placed, fits⟩

end Calls

namespace Edit

variable {set : PartitionSet} {edit : Edit}

theorem sound_of_failed {error : Error} (called : edit.call set = (.error error, set)) :
    edit.Sound set := by
  refine ⟨callTrapping_eq set edit, fun _ after again => ?_, fun after again => ?_⟩
  · rw [called] at again
    cases again
    rfl
  · rw [called] at again
    cases again

theorem sound_iff_of_succeeded {after : PartitionSet}
    (called : edit.call set = (.ok (), after)) : edit.Sound set ↔ KeepsApart set after edit := by
  refine ⟨fun sound => sound.succeeded after called, fun keeps =>
    ⟨callTrapping_eq set edit, fun _ _ again => ?_, fun _ again => ?_⟩⟩
  · rw [called] at again
    cases again
  · rw [called] at again
    cases again
    exact keeps

/-- A call that is no resize has no extra sector. -/
theorem extraSectorFree_of_ne (other : ∀ named newLength, edit ≠ .resize named newLength) :
    edit.ExtraSectorFree set :=
  fun named newLength _ _ isResize => absurd isResize (other named newLength)

end Edit

/-- A call keeps its promise exactly when it does not resize a partition that starts
inside a sector onto a sector that is not free. -/
theorem edit_sound_iff (set : PartitionSet) (edit : Edit) :
    edit.Sound set ↔ edit.ExtraSectorFree set := by
  cases edit with
  | add startHint length typeId label drawn =>
      refine iff_of_true ?_ (Edit.extraSectorFree_of_ne fun _ _ => by simp)
      cases placed : set.place startHint length typeId label drawn with
      | error error =>
          refine @Edit.sound_of_failed _ _ error ?_
          rw [Edit.call, PartitionSet.exec_add, placed]
          rfl
      | ok part =>
          refine (Edit.sound_iff_of_succeeded ?_).mpr (keepsApart_add placed)
          rw [Edit.call, PartitionSet.exec_add, placed]
          rfl
  | remove named =>
      refine iff_of_true ?_ (Edit.extraSectorFree_of_ne fun _ _ => by simp)
      cases resolved : set.resolve named with
      | error error =>
          refine @Edit.sound_of_failed _ _ error ?_
          rw [Edit.call, PartitionSet.exec_remove, resolved]
      | ok index =>
          refine (Edit.sound_iff_of_succeeded ?_).mpr (keepsApart_remove resolved)
          rw [Edit.call, PartitionSet.exec_remove, resolved]
  | resize named newLength =>
      cases computed : set.resized named newLength with
      | error error =>
          have called : (Edit.resize named newLength).call set = (.error error, set) := by
            rw [Edit.call, PartitionSet.exec_resize, computed]
          refine iff_of_true (Edit.sound_of_failed called) fun _ _ _ _ _ _ _ accepted => ?_
          rw [called] at accepted
          cases accepted
      | ok found =>
          obtain ⟨index, sectors⟩ := found
          have called : (Edit.resize named newLength).call set =
              (.ok (), resizedSet set index sectors) := by
            rw [Edit.call, PartitionSet.exec_resize, computed]
            rfl
          have resolved := PartitionSet.resolve_of_resized computed
          obtain ⟨p, listed, _⟩ := free_of_resized computed
          rw [Edit.sound_iff_of_succeeded called, keepsApart_resize_iff computed listed]
          constructor
          · intro free named' newLength' index' p' isResize resolved' listed' _
            cases isResize
            rw [resolved] at resolved'
            cases resolved'
            rw [listed] at listed'
            cases listed'
            exact free
          · intro free
            exact free named newLength index p rfl resolved listed (by rw [called])

/-! ## A partition that starts inside a sector -/

/-- A one-sector volume at the given byte. -/
def volumeAt (start : UInt64) : Partition where
  start
  length := 512
  kind := .mbr MbrTypes.linux false
  label := none
  uuid := none
  slot := none
  issues := 0
  availableLength := 512

/-- Two volumes, the first of which starts a hundred bytes into a sector. -/
def crampedSet : PartitionSet :=
  { PartitionSet.emptyMbr 8388608 with partitions := [volumeAt 1048676, volumeAt 2097152] }

/-- Growing it to 1 MiB succeeds and reaches into the sector of the second. -/
theorem resize_crampedSet_unsound :
    ((Edit.resize (.index 0) 1048576).call crampedSet).1 = .ok () ∧
      ¬ (Edit.resize (.index 0) 1048576).Sound crampedSet := by
  have computed : crampedSet.resized (.index 0) 1048576 = .ok (0, 2048) := by decide +kernel
  have called : (Edit.resize (.index 0) 1048576).call crampedSet =
      (.ok (), resizedSet crampedSet 0 2048) := by
    rw [Edit.call, PartitionSet.exec_resize, computed]
    rfl
  refine ⟨by rw [called], fun sound => ?_⟩
  rw [Edit.sound_iff_of_succeeded called,
    keepsApart_resize_iff computed (p := volumeAt 1048676) rfl] at sound
  refine (sound (by decide)).partitions 1 (volumeAt 2097152) (by decide) rfl ?_
  rw [Partition.mem_sectors]
  decide

end DiskPartitions
