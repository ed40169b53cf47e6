import DiskPartitions.MbrTable
import DiskPartitions.SlotAssignment

/-!
# Writing a master boot record

The checks a list of primary partitions has to pass and the one sector a commit
writes: the old LBA 0 with its entry table rebuilt from the reserved entries and
the partitions.
-/

namespace DiskPartitions

open Slices LittleEndian CheckedWords Refusals FallibleState

/-- The status byte of an active entry. -/
def statusActive : UInt8 := 0x80

/-- Refuse a partition an MBR entry cannot describe, or that leaves the device. -/
def validateMbrPartition (p : Partition) (totalBytes : UInt64) : Except Error Unit := do
  refuseIf (p.kind.isMbr = false) (.invalid "non-MBR partition kind in MBR write")
  refuseIf (p.length = 0) (.invalid "partition has zero length")
  refuseIf (p.start % sectorSize ≠ 0 ∨ p.length % sectorSize ≠ 0)
    (.invalid "partition not sector-aligned")
  let span ← p.sectorSpan
  let sectors := p.length / sectorSize
  refuseIf (mbrLbaMax < span.1 ∨ mbrLbaMax < sectors)
    (.invalid "partition exceeds MBR 32-bit LBA range")
  refuseIf (span.1 < 1) (.invalid "MBR partition cannot start at LBA 0")
  let stop ← orRefuse (checkedAdd p.start p.length)
    (.invalid "a partition's start and length overflow a u64")
  refuseIf (totalBytes < stop) (.invalid "partition extends past device end")

/-- One round of the writer's first loop: the check, then the span it records. -/
def validatedMbrSpan (totalBytes : UInt64) (p : Partition) : Except Error (UInt64 × UInt64) := do
  validateMbrPartition p totalBytes
  p.sectorSpan

/-- The order of pairs, by start and then by end. -/
def SpanLe (a b : UInt64 × UInt64) : Prop := a.1 < b.1 ∨ a.1 = b.1 ∧ a.2 ≤ b.2

instance (a b : UInt64 × UInt64) : Decidable (SpanLe a b) :=
  inferInstanceAs (Decidable (_ ∨ _))

/-- Some span of the list starts before the one in front of it ends. -/
def neighboursOverlap : List (UInt64 × UInt64) → Bool
  | first :: second :: rest =>
      decide (second.1 ≤ first.2) || neighboursOverlap (second :: rest)
  | _ => false

/-- Put a reserved entry back, byte for byte. -/
def keepReserved (sector : List UInt8) (r : ReservedEntry) : List UInt8 :=
  splice sector (MbrLayout.entryAt r.slot.toNat) r.entry.bytes

/-- Put one partition's entry into its slot.  The CHS addresses of the old entry are
kept when it described the same sectors. -/
def writeMbrEntry (existing sector : List UInt8) (seat : Partition × UInt32) :
    Except Error (List UInt8) := do
  let off := MbrLayout.entryAt seat.2.toNat
  let fields ← orRefuse seat.1.kind.mbrFields (.invalid "non-MBR partition kind in MBR write")
  let startLba := (seat.1.start / sectorSize).toUInt32
  let sectors := (seat.1.length / sectorSize).toUInt32
  let sector := splice sector off [if fields.2 then statusActive else 0x00]
  let old := slice existing off MbrLayout.entrySize
  let sameRange := byteAt old MbrLayout.typeByte ≠ MbrTypes.empty ∧
    slice old MbrLayout.startLba 4 = u32Bytes startLba ∧
    slice old MbrLayout.sectorCount 4 = u32Bytes sectors
  let sector :=
    if sameRange then splice (splice sector (off + 1) (slice old 1 3)) (off + 5) (slice old 5 3)
    else sector
  let sector := splice sector (off + MbrLayout.typeByte) [fields.1]
  let sector := splice sector (off + MbrLayout.startLba) (u32Bytes startLba)
  return splice sector (off + MbrLayout.sectorCount) (u32Bytes sectors)

/-- LBA 0 rebuilt: the old sector with its table cleared, the reserved entries put
back, the partitions put in and the boot signature set. -/
def buildMbr (existing : List UInt8) (reserved : List ReservedEntry)
    (seats : List (Partition × UInt32)) : Except Error (List UInt8) := do
  let sector := splice existing MbrLayout.tableStart
    (List.replicate (MbrLayout.entryCount * MbrLayout.entrySize) 0)
  let sector := reserved.foldl keepReserved sector
  let sector ← seats.foldlM (writeMbrEntry existing) sector
  return splice sector 510 [0x55, 0xAA]

/-- Write LBA 0 and return the slot each partition was written into. -/
def writeMbrAssigningSlots (partitions : List Partition) (reserved : List ReservedEntry) :
    DeviceM (List UInt32) := do
  let dev ← Fallible.current
  Fallible.ofExcept (refuseIf (dev.writable = false) (.block .readOnly))
  Fallible.ofExcept (refuseIf (MbrLayout.entryCount < partitions.length + reserved.length)
    (.invalid "MBR supports at most 4 primary partitions"))
  let totalBytes := dev.sizeBytes
  Fallible.ofExcept (refuseIf (totalBytes < sectorSize) .deviceTooSmall)
  let spans ← Fallible.ofExcept (partitions.mapM (validatedMbrSpan totalBytes))
  let spans := (spans ++ reserved.filterMap ReservedEntry.span).insertionSort SpanLe
  Fallible.ofExcept (refuseIf (neighboursOverlap spans = true) (.invalid "partitions overlap"))
  let slots ← Fallible.ofExcept (assignSlotsWithTaken partitions
    (UInt32.ofNat MbrLayout.entryCount) (reserved.map ReservedEntry.slot))
  let existing ← DeviceM.readAt 0 512
  let sector ← Fallible.ofExcept (buildMbr existing reserved (partitions.zip slots))
  DeviceM.writeAt 0 sector
  return slots

end DiskPartitions
