import DiskPartitions.BlockDevices
import DiskPartitions.CheckedWords
import Mathlib.Data.List.Sort

/-!
# Partitions and the rules a table holds them to

The record every reader returns and every writer takes, the sectors a partition
occupies, and the two rules both sides of the crate apply to a GPT entry: it
lies in the header's usable range, and it shares no sector with another entry.
-/

namespace DiskPartitions

open Slices CheckedWords

/-- Bytes in a logical sector. -/
def sectorSize : UInt64 := 512

@[simp]
theorem toNat_sectorSize : sectorSize.toNat = 512 := rfl

/-- The byte offset of a sector below `2 ^ 55` does not wrap. -/
theorem toNat_lba_mul {lba : UInt64} (bounded : lba.toNat < 2 ^ 55) :
    (lba * sectorSize).toNat = lba.toNat * 512 := by
  rw [toNat_mul_of_lt (by rw [toNat_sectorSize]; omega), toNat_sectorSize]

/-- The largest LBA an MBR entry can name. -/
def mbrLbaMax : UInt64 := 0xFFFFFFFF

/-- A `[u8; 16]`: a GUID as stored on disk, or an MBR entry. -/
structure Bytes16 where
  bytes : List UInt8
  length_bytes : bytes.length = 16
  deriving DecidableEq

theorem Bytes16.ext_bytes {first second : Bytes16} (same : first.bytes = second.bytes) :
    first = second := by
  cases first
  cases second
  simpa using same

/-- Sixteen times one byte. -/
def Bytes16.filled (byte : UInt8) : Bytes16 := ⟨List.replicate 16 byte, List.length_replicate⟩

@[simp]
theorem Bytes16.bytes_filled (byte : UInt8) :
    (filled byte).bytes = List.replicate 16 byte := rfl

/-- A GUID in its on-disk byte order. -/
abbrev Guid := Bytes16

/-- The sixteen bytes at `offset`, zeros standing in for bytes that are not there. -/
def bytes16At (bytes : List UInt8) (offset : Nat) : Bytes16 where
  bytes := (slice bytes offset 16 ++ List.replicate 16 0).take 16
  length_bytes := by simp

theorem bytes_bytes16At {bytes : List UInt8} {offset : Nat}
    (inside : offset + 16 ≤ bytes.length) :
    (bytes16At bytes offset).bytes = slice bytes offset 16 := by
  have width : (slice bytes offset 16).length = 16 := length_slice inside
  change (slice bytes offset 16 ++ List.replicate 16 0).take 16 = _
  rw [List.take_append_of_le_length (by omega), List.take_of_length_le (by omega)]

theorem bytes16At_of_slice {bytes : List UInt8} {offset : Nat} {value : Bytes16}
    (stored : slice bytes offset 16 = value.bytes) : bytes16At bytes offset = value := by
  rcases value with ⟨value, length_value⟩
  change slice bytes offset 16 = value at stored
  subst stored
  simp only [bytes16At, Bytes16.mk.injEq]
  rw [List.take_append_of_le_length (by omega), List.take_of_length_le (by omega)]

inductive TableKind
  | gpt
  | mbr
  deriving DecidableEq, Repr

/-- The on-disk type tag of a partition. -/
inductive PartitionKind
  | gpt (typeGuid : Guid) (attributes : UInt64)
  | mbr (typeByte : UInt8) (active : Bool)
  | whole
  deriving DecidableEq

namespace PartitionKind

def isGpt : PartitionKind → Bool
  | .gpt _ _ => true
  | _ => false

def isMbr : PartitionKind → Bool
  | .mbr _ _ => true
  | _ => false

/-- The type GUID and the attributes of a GPT entry. -/
def gptFields : PartitionKind → Option (Guid × UInt64)
  | .gpt typeGuid attributes => some (typeGuid, attributes)
  | _ => none

/-- The type byte and the active flag of an MBR entry. -/
def mbrFields : PartitionKind → Option (UInt8 × Bool)
  | .mbr typeByte active => some (typeByte, active)
  | _ => none

/-- The type GUID of a GPT entry. -/
def typeGuid (kind : PartitionKind) : Option Guid := kind.gptFields.map Prod.fst

end PartitionKind

/-- One partition.  `start` and `length` count bytes from the start of the
device, `slot` is its place in the on-disk table when it has one, and `issues`
is the set of rules its entry breaks. -/
structure Partition where
  start : UInt64
  length : UInt64
  kind : PartitionKind
  label : Option String
  uuid : Option Guid
  slot : Option UInt32
  issues : UInt32
  availableLength : UInt64
  deriving DecidableEq

/-- How much of a partition a device of `deviceSize` bytes holds.  A device that
reports no size contradicts nothing. -/
def availableOnDevice (start length deviceSize : UInt64) : UInt64 :=
  if deviceSize = 0 then length else min length (saturatingSub deviceSize start)

namespace Partition

/-- The first and last sector the partition occupies. -/
def sectorSpan (p : Partition) : Except Error (UInt64 × UInt64) :=
  if p.length = 0 then .error (.invalid "a partition has no last sector")
  else
    match checkedAdd p.start p.length with
    | none => .error (.invalid "a partition's start and length overflow a u64")
    | some stop => .ok (p.start / sectorSize, (stop - 1) / sectorSize)

theorem sectorSpan_eq_ok {p : Partition} {first last : UInt64} :
    p.sectorSpan = .ok (first, last) ↔
      0 < p.length.toNat ∧ p.start.toNat + p.length.toNat < 2 ^ 64 ∧
        first.toNat = p.start.toNat / 512 ∧
        last.toNat = (p.start.toNat + p.length.toNat - 1) / 512 := by
  have positive : p.length = 0 ↔ p.length.toNat = 0 := by
    rw [← UInt64.toNat_inj]
    rfl
  unfold sectorSpan
  split
  next zero =>
    rw [positive] at zero
    simp only [reduceCtorEq, false_iff]
    omega
  next nonzero =>
    rw [positive] at nonzero
    split
    next overflow =>
      rw [checkedAdd_eq_none] at overflow
      simp only [reduceCtorEq, false_iff]
      omega
    next stop sum =>
      rw [checkedAdd_eq_some] at sum
      have stopBound := stop.toNat_lt
      have one : (1 : UInt64).toNat = 1 := rfl
      have stopPred : (stop - 1).toNat = stop.toNat - 1 :=
        toNat_sub_of_le (by rw [one]; omega)
      rw [Except.ok.injEq, Prod.mk.injEq, ← UInt64.toNat_inj, ← UInt64.toNat_inj,
        UInt64.toNat_div, UInt64.toNat_div, toNat_sectorSize, stopPred, sum]
      constructor
      · rintro ⟨firstEq, lastEq⟩
        exact ⟨by omega, by omega, firstEq.symm, lastEq.symm⟩
      · rintro ⟨_, _, firstEq, lastEq⟩
        exact ⟨firstEq.symm, lastEq.symm⟩

/-- A partition with a length that stays inside the word has a span. -/
theorem exists_sectorSpan {p : Partition} (positive : 0 < p.length.toNat)
    (bounded : p.start.toNat + p.length.toNat < 2 ^ 64) :
    ∃ first last, p.sectorSpan = .ok (first, last) ∧
      first.toNat = p.start.toNat / 512 ∧
      last.toNat = (p.start.toNat + p.length.toNat - 1) / 512 := by
  have firstValue : (UInt64.ofNat (p.start.toNat / 512)).toNat = p.start.toNat / 512 :=
    UInt64.toNat_ofNat_of_lt' (by simp [UInt64.size]; omega)
  have lastValue : (UInt64.ofNat ((p.start.toNat + p.length.toNat - 1) / 512)).toNat =
      (p.start.toNat + p.length.toNat - 1) / 512 :=
    UInt64.toNat_ofNat_of_lt' (by simp [UInt64.size]; omega)
  exact ⟨_, _, sectorSpan_eq_ok.mpr ⟨positive, bounded, firstValue, lastValue⟩,
    firstValue, lastValue⟩

end Partition

/-! ## The rules of a GPT entry -/

namespace EntryIssue

def none : UInt32 := 0
def beforeFirstUsable : UInt32 := 1
def pastLastUsable : UInt32 := 2
def overlapsAnother : UInt32 := 4

end EntryIssue

/-- Which usable-range rules the inclusive LBA span breaks. -/
def rangeIssues (startLba endLba firstUsable lastUsable : UInt64) : UInt32 :=
  let issues := EntryIssue.none
  let issues := if startLba < firstUsable then issues ||| EntryIssue.beforeFirstUsable
    else issues
  if lastUsable < startLba ∨ lastUsable < endLba then issues ||| EntryIssue.pastLastUsable
  else issues

/-- One entry of the overlap sweep: entry `i` against the highest end seen so
far, and the entry that reaches it. -/
def sweepStep (spans : List (UInt64 × UInt64)) (state : List Bool × Option (Nat × UInt64))
    (i : Nat) : List Bool × Option (Nat × UInt64) :=
  let span := spans.getD i (0, 0)
  let flags := match state.2 with
    | some (j, highest) =>
        if span.1 ≤ highest then (state.1.set i true).set j true else state.1
    | none => state.1
  let highestEnd := match state.2 with
    | some (j, highest) => if span.2 ≤ highest then some (j, highest) else some (i, span.2)
    | none => some (i, span.2)
  (flags, highestEnd)

/-- Which of the inclusive spans share a sector with another one, in the order
given: one stable sort of the indices by start, one linear pass. -/
def markOverlaps (spans : List (UInt64 × UInt64)) : List Bool :=
  let order := (List.range spans.length).insertionSort fun i j =>
    (spans.getD i (0, 0)).1 ≤ (spans.getD j (0, 0)).1
  (order.foldl (sweepStep spans) (List.replicate spans.length false, none)).1

end DiskPartitions
