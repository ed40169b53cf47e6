import DiskPartitions.PartitionRecords
import DiskPartitions.Refusals
import DiskPartitions.Utf16Text

/-!
# Reading a GUID partition table

The header sector and the entry array, primary and backup, as the crate parses
them.  The checksum is the parameter `crc32`, a fixed function of the bytes.
-/

namespace DiskPartitions

open Slices LittleEndian CheckedWords Refusals

/-- `EFI PART`. -/
def gptSignature : List UInt8 := [0x45, 0x46, 0x49, 0x20, 0x50, 0x41, 0x52, 0x54]

namespace HeaderOffsets

def signature : Nat := 0
def revision : Nat := 8
def headerSize : Nat := 12
def headerCrc32 : Nat := 16
def myLba : Nat := 24
def alternateLba : Nat := 32
def firstUsableLba : Nat := 40
def lastUsableLba : Nat := 48
def diskGuid : Nat := 56
def partitionEntryLba : Nat := 72
def numPartitionEntries : Nat := 80
def partitionEntrySize : Nat := 84
def partitionEntryArrayCrc32 : Nat := 88

end HeaderOffsets

/-- The type GUID of an unused entry. -/
def unusedTypeGuid : Guid := ⟨List.replicate 16 0, by simp⟩

/-- Decoded header fields. -/
structure Header where
  myLba : UInt64
  alternateLba : UInt64
  firstUsableLba : UInt64
  lastUsableLba : UInt64
  diskGuid : Guid
  partitionEntryLba : UInt64
  numPartitionEntries : UInt32
  partitionEntrySize : UInt32
  partitionEntryArrayCrc32 : UInt32
  headerCrc32 : UInt32
  headerSize : UInt32
  deriving DecidableEq

/-- Whether an entry size is 128 times a power of two. -/
def isEntrySize (size : UInt32) : Bool :=
  size % 128 == 0 && (size / 128 != 0 && (size / 128) &&& (size / 128 - 1) == 0)

/-- A read through the block layer, its failure lifted into the crate's errors. -/
def BlockRead.read (dev : BlockRead) (offset len : Nat) : Except Error (List UInt8) :=
  (dev.readAt offset len).mapError .block

section Checksums

variable (crc32 : List UInt8 → UInt32)

/-- Parse and checksum a header read from a logical block of any size. -/
def parseHeaderBlock (sector : List UInt8) : Except Error Header := do
  refuseIf (sector.length < 512) (.gptCorrupt "header block shorter than a sector")
  refuseIf (slice sector HeaderOffsets.signature 8 ≠ gptSignature)
    (.gptCorrupt "missing EFI PART signature")
  let headerSize := u32At sector HeaderOffsets.headerSize
  refuseIf (¬ (92 ≤ headerSize.toNat ∧ headerSize.toNat ≤ sector.length))
    (.gptCorrupt "header_size out of range")
  let storedHeaderCrc := u32At sector HeaderOffsets.headerCrc32
  let headerForCrc := splice (slice sector 0 headerSize.toNat) HeaderOffsets.headerCrc32
    (List.replicate 4 0)
  refuseIf (crc32 headerForCrc ≠ storedHeaderCrc) .gptHeaderCrc
  let revision := u32At sector HeaderOffsets.revision
  refuseIf (revision >>> 16 ≠ 1) (.gptCorrupt "unsupported GPT header revision")
  let partitionEntrySize := u32At sector HeaderOffsets.partitionEntrySize
  let numPartitionEntries := u32At sector HeaderOffsets.numPartitionEntries
  refuseIf (¬ (128 ≤ partitionEntrySize ∧ partitionEntrySize ≤ 4096))
    (.gptCorrupt "partition_entry_size out of range")
  refuseIf (¬ isEntrySize partitionEntrySize)
    (.gptCorrupt "partition_entry_size is not 128 times a power of two")
  refuseIf (4096 < numPartitionEntries) (.gptCorrupt "num_partition_entries > 4096")
  return {
    myLba := u64At sector HeaderOffsets.myLba
    alternateLba := u64At sector HeaderOffsets.alternateLba
    firstUsableLba := u64At sector HeaderOffsets.firstUsableLba
    lastUsableLba := u64At sector HeaderOffsets.lastUsableLba
    diskGuid := bytes16At sector HeaderOffsets.diskGuid
    partitionEntryLba := u64At sector HeaderOffsets.partitionEntryLba
    numPartitionEntries
    partitionEntrySize
    partitionEntryArrayCrc32 := u32At sector HeaderOffsets.partitionEntryArrayCrc32
    headerCrc32 := storedHeaderCrc
    headerSize }

/-- Parse a header from one 512-byte sector. -/
def parseHeader (sector : List UInt8) : Except Error Header := parseHeaderBlock crc32 sector

/-- The code units of a name field, up to the first zero. -/
def labelUnits : List UInt8 → List Nat
  | low :: high :: rest =>
      let unit := decode [low, high]
      if unit = 0 then [] else unit :: labelUnits rest
  | _ => []

/-- Decode a zero-padded UTF-16 name; an empty one is no label. -/
def parseUtf16Label (bytes : List UInt8) : Option String :=
  let units := labelUnits bytes
  if units.isEmpty then none else some (String.ofList (Utf16.decodeLossy units))

/-- Entry `i` of the array: `none` when its type GUID marks it unused. -/
def parseEntry (entrySize : Nat) (deviceSize : UInt64) (array : List UInt8) (i : Nat) :
    Except Error (Option (Partition × UInt64 × UInt64)) :=
  let off := i * entrySize
  let typeGuid := bytes16At array off
  if typeGuid = unusedTypeGuid then .ok none
  else do
    let uniqueGuid := bytes16At array (off + 16)
    let startLba := u64At array (off + 32)
    let endLba := u64At array (off + 40)
    refuseIf (endLba < startLba) (.gptCorrupt "ending_lba < starting_lba")
    let attributes := u64At array (off + 48)
    let start ← orRefuse (checkedMul startLba sectorSize)
      (.gptCorrupt "starting_lba overflows a byte offset")
    let sectors ← orRefuse ((checkedSub endLba startLba).bind (checkedAdd · 1))
      (.gptCorrupt "partition sector count overflows")
    let length ← orRefuse (checkedMul sectors sectorSize)
      (.gptCorrupt "partition length overflows a byte count")
    return some ({
      start
      length
      kind := .gpt typeGuid attributes
      label := parseUtf16Label (slice array (off + 56) 72)
      uuid := some uniqueGuid
      slot := some (UInt32.ofNat i)
      issues := EntryIssue.none
      availableLength := availableOnDevice start length deviceSize }, startLba, endLba)

/-- The used entries among the given slots, in order, stopping at the first bad one. -/
def parseEntries (entrySize : Nat) (deviceSize : UInt64) (array : List UInt8) :
    List Nat → Except Error (List (Partition × UInt64 × UInt64))
  | [] => .ok []
  | i :: rest => do
      match ← parseEntry entrySize deviceSize array i with
      | none => parseEntries entrySize deviceSize array rest
      | some entry => return entry :: (← parseEntries entrySize deviceSize array rest)

/-- Set each entry's issues from the header's usable range, then add the overlap
bit to the entries that share a sector with another. -/
def withIssues (header : Header) (found : List (Partition × UInt64 × UInt64)) :
    List Partition :=
  let overlaps := markOverlaps (found.map Prod.snd)
  List.zipWith (fun (entry : Partition × UInt64 × UInt64) overlap =>
    let issues := rangeIssues entry.2.1 entry.2.2 header.firstUsableLba header.lastUsableLba
    { entry.1 with
      issues := if overlap then issues ||| EntryIssue.overlapsAnother else issues })
    found overlaps

/-- Read, checksum and decode the entry array a header describes, returning the
partitions and the array's bytes. -/
def parseEntryArray (dev : BlockRead) (header : Header) :
    Except Error (List Partition × List UInt8) := do
  let totalArrayBytes :=
    header.numPartitionEntries.toUInt64 * header.partitionEntrySize.toUInt64
  let arrayOffset ← orRefuse (checkedMul header.partitionEntryLba sectorSize)
    (.gptCorrupt "partition_entry_lba overflows a byte offset")
  let arrayEnd ← orRefuse (checkedAdd arrayOffset totalArrayBytes)
    (.gptCorrupt "partition entry array overflows")
  let size := dev.sizeBytes
  refuseIf (size ≠ 0 ∧ size < arrayEnd)
    (.gptCorrupt "partition entry array reaches past the end of the device")
  let array ← dev.read arrayOffset.toNat totalArrayBytes.toNat
  refuseIf (crc32 array ≠ header.partitionEntryArrayCrc32) .gptEntriesCrc
  let found ← parseEntries header.partitionEntrySize.toNat size array
    (List.range header.numPartitionEntries.toNat)
  return (withIssues header found, array)

/-- Parse the primary table from the sector at LBA 1. -/
def parseGpt (dev : BlockRead) (lba1 : List UInt8) : Except Error (List Partition) := do
  let header ← parseHeader crc32 lba1
  refuseIf (header.myLba ≠ 1) (.gptCorrupt "primary header my_lba != 1")
  let (parts, _) ← parseEntryArray crc32 dev header
  return parts

/-- Bytes of an entry the specification defines. -/
def entryStandardBytes : Nat := 128

/-- The bytes past the standard 128 of each entry, keyed by the partition's UUID. -/
abbrev EntryTails := Guid → Option (List UInt8)

/-- Collect the tails of the listed entries; two entries may share a UUID only
when they share the tail. -/
def collectTails (entrySize : Nat) (array : List UInt8) :
    List Partition → EntryTails → Except Error EntryTails
  | [], tails => .ok tails
  | p :: rest, tails =>
      match p.uuid, p.slot with
      | some uuid, some slot =>
          let off := slot.toNat * entrySize
          let tail := slice array (off + entryStandardBytes) (entrySize - entryStandardBytes)
          match tails uuid with
          | some kept =>
              if kept ≠ tail then
                .error (.gptCorrupt ("two entries share a unique partition GUID and carry " ++
                  "different entry tails, which a rewrite cannot keep apart"))
              else collectTails entrySize array rest tails
          | none =>
              collectTails entrySize array rest
                (fun other => if other = uuid then some tail else tails other)
      | _, _ => collectTails entrySize array rest tails

/-- Read the entry array and return each entry's tail bytes. -/
def entryTails (dev : BlockRead) (header : Header) : Except Error EntryTails := do
  if header.partitionEntrySize.toNat ≤ entryStandardBytes then
    return fun _ => none
  let (parts, array) ← parseEntryArray crc32 dev header
  collectTails header.partitionEntrySize.toNat array parts fun _ => none

/-- Parse the backup table from the device's last sector. -/
def parseBackup (dev : BlockRead) : Except Error (List Partition) := do
  let total := dev.sizeBytes
  refuseIf (total < 2 * sectorSize) (.gptCorrupt "device too small for GPT backup")
  let lastLba := total / sectorSize - 1
  let sector ← dev.read (lastLba * sectorSize).toNat 512
  let header ← parseHeader crc32 sector
  refuseIf (header.myLba ≠ lastLba) (.gptCorrupt "backup my_lba != last LBA")
  let (parts, _) ← parseEntryArray crc32 dev header
  return parts

/-- What comparing the backup with the primary found. -/
inductive BackupStatus
  | ok
  | mismatch (reason : String)
  deriving DecidableEq, Repr

/-- The first field in which two partitions differ, in the order they are compared. -/
def comparePartitions (a b : Partition) : BackupStatus :=
  if a.start ≠ b.start ∨ a.length ≠ b.length then .mismatch "partition range differs"
  else if a.uuid ≠ b.uuid then .mismatch "partition uuid differs"
  else if a.kind ≠ b.kind then .mismatch "partition type differs"
  else if a.slot ≠ b.slot then .mismatch "partition slot differs"
  else if a.label ≠ b.label then .mismatch "partition label differs"
  else .ok

/-- Compare two equally long lists pair by pair. -/
def compareLists : List Partition → List Partition → BackupStatus
  | a :: first, b :: second =>
      match comparePartitions a b with
      | .ok => compareLists first second
      | mismatch => mismatch
  | _, _ => .ok

/-- Partitions by first byte; equal starts keep their order. -/
def sortByStart (partitions : List Partition) : List Partition :=
  partitions.insertionSort fun p q => p.start ≤ q.start

/-- Validate the backup against the primary's partitions. -/
def validateBackup (dev : BlockRead) (primary : List Partition) : BackupStatus :=
  match parseBackup crc32 dev with
  | .error (.gptCorrupt _) => .mismatch "backup header corrupt"
  | .error .gptHeaderCrc => .mismatch "backup header CRC"
  | .error .gptEntriesCrc => .mismatch "backup entries CRC"
  | .error _ => .mismatch "backup unreadable"
  | .ok backup =>
      if backup.length ≠ primary.length then .mismatch "partition count differs"
      else compareLists (sortByStart primary) (sortByStart backup)

end Checksums

end DiskPartitions
