import DiskPartitions.GptReader
import DiskPartitions.MbrTable
import DiskPartitions.SlotAssignment

/-!
# Writing a GUID partition table

The shape of an entry array and the usable range that follows from it, the
checks a list of partitions has to pass, and the five regions a commit writes:
LBA 0, the primary header, the entry array twice, and the backup header.
-/

namespace DiskPartitions

open Slices LittleEndian CheckedWords Refusals FallibleState

/-- The largest LBA whose byte offset fits in a word. -/
def maxLba : UInt64 := (0 - 1) / sectorSize

namespace GptLayout

def numEntries : UInt32 := 128
def entrySize : UInt32 := 128
def headerSize : UInt32 := 92
def entryArraySectors : UInt64 := numEntries.toUInt64 * entrySize.toUInt64 / sectorSize
def firstUsableLba : UInt64 := 2 + entryArraySectors

end GptLayout

/-- The shape of a GPT's entry array.  `declaredUsable` is the usable range of a
table that came off a disk, and absent for one being created. -/
structure GptGeometry where
  numEntries : UInt32
  entrySize : UInt32
  entryLba : UInt64
  declaredUsable : Option (UInt64 × UInt64)
  deriving DecidableEq

namespace GptGeometry

/-- 128 entries of 128 bytes at LBA 2. -/
def canonical : GptGeometry where
  numEntries := GptLayout.numEntries
  entrySize := GptLayout.entrySize
  entryLba := 2
  declaredUsable := none

/-- The shape a disk's header describes. -/
def fromHeader (header : Header) : GptGeometry where
  numEntries := header.numPartitionEntries
  entrySize := header.partitionEntrySize
  entryLba := header.partitionEntryLba
  declaredUsable := some (header.firstUsableLba, header.lastUsableLba)

/-- Bytes the entry array occupies. -/
def arrayBytes (g : GptGeometry) : UInt64 := g.numEntries.toUInt64 * g.entrySize.toUInt64

/-- Sectors the entry array occupies, rounded up. -/
def arraySectors (g : GptGeometry) : UInt64 := divCeil g.arrayBytes sectorSize

/-- Sectors of the backup array and the backup header. -/
def backupReserveSectors (g : GptGeometry) : UInt64 := g.arraySectors + 1

/-- Refuse a shape no table can have, whatever disk it goes on. -/
def checkShape (g : GptGeometry) : Except Error Unit := do
  refuseIf (g.numEntries = 0) (.invalid "a GPT with no entry slots")
  refuseIf (4096 < g.numEntries) (.invalid "a GPT with more than 4096 entry slots")
  refuseIf (4096 < g.entrySize) (.invalid "a GPT entry size above 4096 bytes")
  refuseIf (g.entrySize < GptLayout.entrySize) (.invalid "a GPT entry size below 128 bytes")
  refuseIf (¬ isEntrySize g.entrySize)
    (.invalid "a GPT entry size that is not 128 times a power of two")
  refuseIf (g.entryLba < 2) (.invalid "a GPT entry array starting at or before the header")
  refuseIf (maxLba < g.entryLba)
    (.invalid "a GPT entry array at an LBA whose byte offset does not fit a u64")
  refuseIf (maxLba < g.arraySectors)
    (.invalid "a GPT entry array longer than any device could hold")
  refuseIf ((checkedAdd g.entryLba g.arraySectors).all (decide <| maxLba < ·) = true)
    (.invalid "a GPT whose entry array ends past the last addressable LBA")

/-- The usable range on a device of `totalSectors`. -/
def usableRange (g : GptGeometry) (totalSectors : UInt64) :
    Except Error (UInt64 × UInt64) := do
  g.checkShape
  let firstPossible := g.entryLba + g.arraySectors
  let reserve := g.backupReserveSectors
  refuseIf (totalSectors ≤ firstPossible + reserve) .deviceTooSmall
  let lastPossible := totalSectors - 1 - reserve
  match g.declaredUsable with
  | none => return (firstPossible, lastPossible)
  | some (first, last) => do
      refuseIf (first < firstPossible)
        (.invalid "the table's first usable LBA is inside its own entry array")
      refuseIf (lastPossible < last)
        (.invalid "the table's last usable LBA is inside the space the backup copy needs")
      refuseIf (last < first) (.invalid "the table's usable range runs backwards")
      return (first, last)

end GptGeometry

/-- Refuse a partition the table cannot hold. -/
def validatePartition (p : Partition) (firstUsable lastUsable : UInt64) :
    Except Error Unit := do
  refuseIf (p.kind.isGpt = false) (.invalid "non-GPT partition kind in GPT write")
  refuseIf (p.length = 0) (.invalid "partition has zero length")
  refuseIf (p.start % sectorSize ≠ 0 ∨ p.length % sectorSize ≠ 0)
    (.invalid "partition not sector-aligned")
  let (startLba, endLba) ← p.sectorSpan
  let issues := rangeIssues startLba endLba firstUsable lastUsable
  refuseIf (issues &&& EntryIssue.beforeFirstUsable ≠ 0)
    (.invalid "partition starts before first usable LBA")
  refuseIf (issues &&& EntryIssue.pastLastUsable ≠ 0)
    (.invalid "partition runs past last usable LBA")
  refuseIf (p.kind.typeGuid = some unusedTypeGuid)
    (.invalid "partition type GUID is the unused sentinel")

/-- One round of the writer's first loop: the check, then the span it records. -/
def validatedSpan (firstUsable lastUsable : UInt64) (p : Partition) :
    Except Error (UInt64 × UInt64) := do
  validatePartition p firstUsable lastUsable
  p.sectorSpan

/-! ## The entry array -/

/-- Put code units down from `offset` on, two bytes each. -/
def writeUnits (array : List UInt8) (offset : Nat) : List Nat → List UInt8
  | [] => array
  | unit :: units => writeUnits (splice array offset (encode 2 unit)) (offset + 2) units

/-- Put a label down, character by character, until the next one does not fit in
the 36 units of the field. -/
def writeLabel (array : List UInt8) (nameOff written : Nat) : List Char → List UInt8
  | [] => array
  | c :: text =>
      if 72 < (written + Utf16.unitCount c) * 2 then array
      else
        writeLabel (writeUnits array (nameOff + written * 2) (Utf16.units c)) nameOff
          (written + Utf16.unitCount c) text

/-- Put a label into the name field at `nameOff`. -/
def writeName (array : List UInt8) (nameOff : Nat) : Option String → List UInt8
  | some label => writeLabel array nameOff 0 label.toList
  | none => array

/-- Put the partition's own tail past the standard bytes of the entry at `off`,
cut to the entry size. -/
def writeTail (g : GptGeometry) (tails : EntryTails) (uuid : Guid) (array : List UInt8)
    (off : Nat) : List UInt8 :=
  if entryStandardBytes < g.entrySize.toNat then
    match tails uuid with
    | some tail =>
        splice array (off + entryStandardBytes)
          (tail.take (g.entrySize.toNat - entryStandardBytes))
    | none => array
  else array

/-- What an entry says about its partition. -/
structure EntryRecord where
  typeGuid : Guid
  uuid : Guid
  startLba : UInt64
  endLba : UInt64
  attributes : UInt64
  label : Option String

/-- The values an entry is made of, when the partition has them all. -/
def Partition.entryRecord (p : Partition) : Except Error EntryRecord := do
  let (typeGuid, attributes) ← orRefuse p.kind.gptFields
    (.invalid "non-GPT partition kind in GPT write")
  let uuid ← orRefuse p.uuid (.invalid "GPT partition missing UUID")
  let (startLba, endLba) ← p.sectorSpan
  return ⟨typeGuid, uuid, startLba, endLba, attributes, p.label⟩

/-- Lay an entry out in the array from `off` on. -/
def layEntry (g : GptGeometry) (tails : EntryTails) (array : List UInt8) (off : Nat)
    (r : EntryRecord) : List UInt8 :=
  let array := writeTail g tails r.uuid array off
  let array := splice array off r.typeGuid.bytes
  let array := splice array (off + 16) r.uuid.bytes
  let array := splice array (off + 32) (u64Bytes r.startLba)
  let array := splice array (off + 40) (u64Bytes r.endLba)
  let array := splice array (off + 48) (u64Bytes r.attributes)
  writeName array (off + 56) r.label

/-- Put one partition's entry into its slot of the array. -/
def writeEntry (g : GptGeometry) (tails : EntryTails) (array : List UInt8)
    (seat : Partition × UInt32) : Except Error (List UInt8) := do
  let r ← seat.1.entryRecord
  return layEntry g tails array (seat.2.toNat * g.entrySize.toNat) r

/-- The array of zeros with each partition's entry in its slot. -/
def buildEntryArray (g : GptGeometry) (tails : EntryTails)
    (seats : List (Partition × UInt32)) : Except Error (List UInt8) :=
  seats.foldlM (writeEntry g tails) (List.replicate g.arrayBytes.toNat 0)

/-! ## LBA 0 -/

/-- An LBA 0 that holds nothing but the `0xEE` entry over the whole disk. -/
def protectiveMbr (totalSectors : UInt64) : List UInt8 :=
  let covered := min (totalSectors - 1) mbrLbaMax
  let mbr := List.replicate 512 0
  let mbr := splice mbr 446 [0x00, 0x00, 0x02, 0x00, MbrTypes.gptProtective]
  let mbr := splice mbr 451 (chsForLba covered)
  let mbr := splice mbr 454 (u32Bytes 1)
  let mbr := splice mbr 458 (u32Bytes covered.toUInt32)
  splice mbr 510 [0x55, 0xAA]

/-- Keep one entry of the old LBA 0, unless it mirrors a partition that is no
longer written; remember the slot of the first `0xEE` marker. -/
def keepLba0Entry (rebuildMarker : Bool) (partitions : List Partition)
    (state : List UInt8 × Option Nat) (entry : ReservedEntry) : List UInt8 × Option Nat :=
  let (out, markerSlot) := state
  let kept := splice out (MbrLayout.entryAt entry.slot.toNat) entry.entry.bytes
  if entry.typeByte = MbrTypes.gptProtective then
    (if markerSlot.isNone ∧ ¬ rebuildMarker then kept else out,
      some (markerSlot.getD entry.slot.toNat))
  else
    let sectors := entry.field MbrLayout.sectorCount
    let start := entry.field MbrLayout.startLba * sectorSize
    if entryRole entry.typeByte = .volume ∧ sectors ≠ 0 ∧
        ¬ partitions.any (fun p => p.start = start ∧ p.length = sectors * sectorSize) then
      (out, markerSlot)
    else (kept, markerSlot)

/-- Put the `0xEE` entry into the slot of the old marker, or into the first free
slot when there was none; a marker that was kept needs nothing more. -/
def placeProtective (rebuildMarker : Bool) (protective : Bytes16) (out : List UInt8)
    (markerSlot : Option Nat) : Except Error (List UInt8) :=
  if !rebuildMarker && markerSlot.isSome then .ok out
  else do
    let slot ← orRefuse (markerSlot.or ((List.range MbrLayout.entryCount).find? fun i =>
        typeByteAt out i == MbrTypes.empty))
      (.invalid "LBA 0 has no protective entry and no free slot for one")
    return splice out (MbrLayout.entryAt slot) protective.bytes

/-- LBA 0 of a commit onto a disk whose LBA 0 held the entries `lba0`. -/
def hybridLba0 (current : List UInt8) (lba0 : List ReservedEntry) (protective : Bytes16)
    (partitions : List Partition) : Except Error (List UInt8) := do
  refuseIf (lba0.any (fun entry => MbrLayout.entryCount ≤ entry.slot.toNat) = true)
    (.invalid "reserved entry slot past the end of the table")
  let out := splice (List.replicate 512 0) 0 (slice current 0 MbrLayout.tableStart)
  let rebuildMarker := isProtective current
  let state := lba0.foldl (keepLba0Entry rebuildMarker partitions) (out, none)
  let out ← placeProtective rebuildMarker protective state.1 state.2
  return splice out 510 [0x55, 0xAA]

/-- LBA 0 of a commit: a bare protective MBR, or the old sector's own entries
around one. -/
def commitLba0 (totalSectors : UInt64) (partitions : List Partition)
    (lba0 : List ReservedEntry) : DeviceM (List UInt8) :=
  let mbr := protectiveMbr totalSectors
  if lba0.isEmpty then pure mbr
  else do
    let current ← DeviceM.readAt 0 512
    Fallible.ofExcept (hybridLba0 current lba0 (bytes16At mbr 446) partitions)

/-! ## Headers and the commit -/

section Checksums

variable (crc32 : List UInt8 → UInt32)

/-- The header sector before its own checksum is put in. -/
def headerBody (myLba alternateLba entryLba : UInt64) (usable : UInt64 × UInt64)
    (diskGuid : Guid) (entryArrayCrc : UInt32) (g : GptGeometry) : List UInt8 :=
  let h := List.replicate 512 0
  let h := splice h HeaderOffsets.signature gptSignature
  let h := splice h HeaderOffsets.revision (u32Bytes 0x00010000)
  let h := splice h HeaderOffsets.headerSize (u32Bytes GptLayout.headerSize)
  let h := splice h HeaderOffsets.myLba (u64Bytes myLba)
  let h := splice h HeaderOffsets.alternateLba (u64Bytes alternateLba)
  let h := splice h HeaderOffsets.firstUsableLba (u64Bytes usable.1)
  let h := splice h HeaderOffsets.lastUsableLba (u64Bytes usable.2)
  let h := splice h HeaderOffsets.diskGuid diskGuid.bytes
  let h := splice h HeaderOffsets.partitionEntryLba (u64Bytes entryLba)
  let h := splice h HeaderOffsets.numPartitionEntries (u32Bytes g.numEntries)
  let h := splice h HeaderOffsets.partitionEntrySize (u32Bytes g.entrySize)
  splice h HeaderOffsets.partitionEntryArrayCrc32 (u32Bytes entryArrayCrc)

/-- A header sector, checksummed. -/
def buildHeader (myLba alternateLba entryLba : UInt64) (usable : UInt64 × UInt64)
    (diskGuid : Guid) (entryArrayCrc : UInt32) (g : GptGeometry) : List UInt8 :=
  let h := headerBody myLba alternateLba entryLba usable diskGuid entryArrayCrc g
  let headerCrc := crc32 (slice h 0 GptLayout.headerSize.toNat)
  splice h HeaderOffsets.headerCrc32 (u32Bytes headerCrc)

/-- Write a complete GPT and return the slot each partition was written into. -/
def writeGptAssigningSlots (partitions : List Partition) (diskGuid : Guid) (g : GptGeometry)
    (tails : EntryTails) (lba0 : List ReservedEntry) : DeviceM (List UInt32) := do
  let dev ← Fallible.current
  Fallible.ofExcept (refuseIf (dev.writable = false) (.block .readOnly))
  let totalSectors := dev.sizeBytes / sectorSize
  let usable ← Fallible.ofExcept (g.usableRange totalSectors)
  let lastLba := totalSectors - 1
  let arraySectors := g.arraySectors
  Fallible.ofExcept (refuseIf (g.numEntries.toNat < partitions.length)
    (.invalid "more partitions than the table has entry slots"))
  let spans ← Fallible.ofExcept (partitions.mapM (validatedSpan usable.1 usable.2))
  Fallible.ofExcept (refuseIf ((markOverlaps spans).any id = true)
    (.invalid "partitions overlap"))
  let slots ← Fallible.ofExcept (assignSlots partitions g.numEntries)
  let array ← Fallible.ofExcept (buildEntryArray g tails (partitions.zip slots))
  let entryArrayCrc := crc32 array
  let mbr ← commitLba0 totalSectors partitions lba0
  DeviceM.writeAt 0 mbr
  let primary := buildHeader crc32 1 lastLba g.entryLba usable diskGuid entryArrayCrc g
  DeviceM.writeAt sectorSize.toNat primary
  DeviceM.writeAt (g.entryLba * sectorSize).toNat array
  let backupEntriesLba := lastLba - arraySectors
  DeviceM.writeAt (backupEntriesLba * sectorSize).toNat array
  let backup := buildHeader crc32 lastLba 1 backupEntriesLba usable diskGuid entryArrayCrc g
  DeviceM.writeAt (lastLba * sectorSize).toNat backup
  return slots

end Checksums

end DiskPartitions
