import DiskPartitions.TableProbe
import DiskPartitions.OverlapMarking
import DiskPartitions.TrappingWords

/-!
# Probes compiled with bounds and overflow checks

The readers once more, as a checked build runs them: an index past the end of its
buffer traps, and so does every operation on words that the source writes without a
check of its own and that leaves the word.  Nothing a device says makes one trap.
-/

namespace DiskPartitions

open Slices LittleEndian CheckedWords Refusals TrappingWords

/-! ## Fields of a buffer -/

def sliceWithin (bytes : List UInt8) (offset len : Nat) : Option (List UInt8) :=
  within bytes offset len (slice bytes offset len)

def u32Within (bytes : List UInt8) (offset : Nat) : Option UInt32 :=
  within bytes offset 4 (u32At bytes offset)

def u64Within (bytes : List UInt8) (offset : Nat) : Option UInt64 :=
  within bytes offset 8 (u64At bytes offset)

def bytes16Within (bytes : List UInt8) (offset : Nat) : Option Bytes16 :=
  within bytes offset 16 (bytes16At bytes offset)

def byteWithin (bytes : List UInt8) (offset : Nat) : Option UInt8 :=
  within bytes offset 1 (byteAt bytes offset)

/-! ## The GPT -/

/-- One entry of the overlap sweep, its indices checked. -/
def sweepStepTrapping (spans : List (UInt64 × UInt64)) (state : List Bool × Option (Nat × UInt64))
    (i : Nat) : Option (List Bool × Option (Nat × UInt64)) := do
  let span ← within spans i 1 (spans.getD i (0, 0))
  let flags ← match state.2 with
    | some (j, highest) =>
        if span.1 ≤ highest then do
          let first ← within state.1 i 1 (state.1.set i true)
          within first j 1 (first.set j true)
        else some state.1
    | none => some state.1
  let highestEnd := match state.2 with
    | some (j, highest) => if span.2 ≤ highest then some (j, highest) else some (i, span.2)
    | none => some (i, span.2)
  return (flags, highestEnd)

def markOverlapsTrapping (spans : List (UInt64 × UInt64)) : Option (List Bool) := do
  let keys ← (List.range spans.length).mapM fun i => within spans i 1 (spans.getD i (0, 0)).1
  let order := (List.range spans.length).insertionSort fun i j => keys.getD i 0 ≤ keys.getD j 0
  let swept ← order.foldlM (sweepStepTrapping spans) (List.replicate spans.length false, none)
  return swept.1

def withIssuesTrapping (header : Header) (found : List (Partition × UInt64 × UInt64)) :
    Option (List Partition) := do
  let overlaps ← markOverlapsTrapping (found.map Prod.snd)
  return List.zipWith (fun (entry : Partition × UInt64 × UInt64) overlap =>
    let issues := rangeIssues entry.2.1 entry.2.2 header.firstUsableLba header.lastUsableLba
    { entry.1 with
      issues := if overlap then issues ||| EntryIssue.overlapsAnother else issues })
    found overlaps

def parseEntryTrapping (entrySize : Nat) (deviceSize : UInt64) (array : List UInt8) (i : Nat) :
    Trapping Error (Option (Partition × UInt64 × UInt64)) := do
  let off := i * entrySize
  let typeGuid ← word (bytes16Within array off)
  if typeGuid = unusedTypeGuid then exact (.ok none)
  else do
    let uniqueGuid ← word (bytes16Within array (off + 16))
    let startLba ← word (u64Within array (off + 32))
    let endLba ← word (u64Within array (off + 40))
    exact (refuseIf (endLba < startLba) (.gptCorrupt "ending_lba < starting_lba"))
    let attributes ← word (u64Within array (off + 48))
    let start ← exact (orRefuse (checkedMul startLba sectorSize)
      (.gptCorrupt "starting_lba overflows a byte offset"))
    let sectors ← exact (orRefuse ((checkedSub endLba startLba).bind (checkedAdd · 1))
      (.gptCorrupt "partition sector count overflows"))
    let length ← exact (orRefuse (checkedMul sectors sectorSize)
      (.gptCorrupt "partition length overflows a byte count"))
    let nameBytes ← word (sliceWithin array (off + 56) 72)
    return some ({
      start
      length
      kind := .gpt typeGuid attributes
      label := parseUtf16Label nameBytes
      uuid := some uniqueGuid
      slot := some (UInt32.ofNat i)
      issues := EntryIssue.none
      availableLength := availableOnDevice start length deviceSize }, startLba, endLba)

def parseEntriesTrapping (entrySize : Nat) (deviceSize : UInt64) (array : List UInt8) :
    List Nat → Trapping Error (List (Partition × UInt64 × UInt64))
  | [] => exact (.ok [])
  | i :: rest => do
      match ← parseEntryTrapping entrySize deviceSize array i with
      | none => parseEntriesTrapping entrySize deviceSize array rest
      | some entry => return entry :: (← parseEntriesTrapping entrySize deviceSize array rest)

section Checksums

variable (crc32 : List UInt8 → UInt32)

def parseHeaderBlockTrapping (sector : List UInt8) : Trapping Error Header := do
  exact (refuseIf (sector.length < 512) (.gptCorrupt "header block shorter than a sector"))
  let signature ← word (sliceWithin sector HeaderOffsets.signature 8)
  exact (refuseIf (signature ≠ gptSignature) (.gptCorrupt "missing EFI PART signature"))
  let headerSize ← word (u32Within sector HeaderOffsets.headerSize)
  exact (refuseIf (¬ (92 ≤ headerSize.toNat ∧ headerSize.toNat ≤ sector.length))
    (.gptCorrupt "header_size out of range"))
  let storedHeaderCrc ← word (u32Within sector HeaderOffsets.headerCrc32)
  let header ← word (sliceWithin sector 0 headerSize.toNat)
  let headerForCrc ← word (within header HeaderOffsets.headerCrc32 4
    (splice header HeaderOffsets.headerCrc32 (List.replicate 4 0)))
  let covered ← word (sliceWithin headerForCrc 0 headerSize.toNat)
  exact (refuseIf (crc32 covered ≠ storedHeaderCrc) .gptHeaderCrc)
  let revision ← word (u32Within sector HeaderOffsets.revision)
  exact (refuseIf (revision >>> 16 ≠ 1) (.gptCorrupt "unsupported GPT header revision"))
  let myLba ← word (u64Within sector HeaderOffsets.myLba)
  let alternateLba ← word (u64Within sector HeaderOffsets.alternateLba)
  let firstUsableLba ← word (u64Within sector HeaderOffsets.firstUsableLba)
  let lastUsableLba ← word (u64Within sector HeaderOffsets.lastUsableLba)
  let diskGuid ← word (bytes16Within sector HeaderOffsets.diskGuid)
  let partitionEntryLba ← word (u64Within sector HeaderOffsets.partitionEntryLba)
  let numPartitionEntries ← word (u32Within sector HeaderOffsets.numPartitionEntries)
  let partitionEntrySize ← word (u32Within sector HeaderOffsets.partitionEntrySize)
  let partitionEntryArrayCrc32 ← word (u32Within sector HeaderOffsets.partitionEntryArrayCrc32)
  exact (refuseIf (¬ (128 ≤ partitionEntrySize ∧ partitionEntrySize ≤ 4096))
    (.gptCorrupt "partition_entry_size out of range"))
  exact (refuseIf (¬ isEntrySize partitionEntrySize)
    (.gptCorrupt "partition_entry_size is not 128 times a power of two"))
  exact (refuseIf (4096 < numPartitionEntries) (.gptCorrupt "num_partition_entries > 4096"))
  return {
    myLba
    alternateLba
    firstUsableLba
    lastUsableLba
    diskGuid
    partitionEntryLba
    numPartitionEntries
    partitionEntrySize
    partitionEntryArrayCrc32
    headerCrc32 := storedHeaderCrc
    headerSize }

def parseEntryArrayTrapping (dev : BlockRead) (header : Header) :
    Trapping Error (List Partition × List UInt8) := do
  let totalArrayBytes ← word (checkedMul header.numPartitionEntries.toUInt64
    header.partitionEntrySize.toUInt64)
  let arrayOffset ← exact (orRefuse (checkedMul header.partitionEntryLba sectorSize)
    (.gptCorrupt "partition_entry_lba overflows a byte offset"))
  let arrayEnd ← exact (orRefuse (checkedAdd arrayOffset totalArrayBytes)
    (.gptCorrupt "partition entry array overflows"))
  let size := dev.sizeBytes
  exact (refuseIf (size ≠ 0 ∧ size < arrayEnd)
    (.gptCorrupt "partition entry array reaches past the end of the device"))
  let array ← exact (dev.read arrayOffset.toNat totalArrayBytes.toNat)
  exact (refuseIf (crc32 array ≠ header.partitionEntryArrayCrc32) .gptEntriesCrc)
  let found ← parseEntriesTrapping header.partitionEntrySize.toNat size array
    (List.range header.numPartitionEntries.toNat)
  let parts ← word (withIssuesTrapping header found)
  return (parts, array)

def parseGptTrapping (dev : BlockRead) (lba1 : List UInt8) : Trapping Error (List Partition) := do
  let header ← parseHeaderBlockTrapping crc32 lba1
  exact (refuseIf (header.myLba ≠ 1) (.gptCorrupt "primary header my_lba != 1"))
  let (parts, _) ← parseEntryArrayTrapping crc32 dev header
  return parts

def parseBackupTrapping (dev : BlockRead) : Trapping Error (List Partition) := do
  let total := dev.sizeBytes
  exact (refuseIf (total < 2 * sectorSize) (.gptCorrupt "device too small for GPT backup"))
  let lastLba ← word (checkedSub (total / sectorSize) 1)
  let offset ← word (checkedMul lastLba sectorSize)
  let sector ← exact (dev.read offset.toNat 512)
  let header ← parseHeaderBlockTrapping crc32 sector
  exact (refuseIf (header.myLba ≠ lastLba) (.gptCorrupt "backup my_lba != last LBA"))
  let (parts, _) ← parseEntryArrayTrapping crc32 dev header
  return parts

/-- The comparison with the backup; `none` is a trap. -/
def validateBackupTrapping (dev : BlockRead) (primary : List Partition) : Option BackupStatus :=
  (parseBackupTrapping crc32 dev).run.map fun
    | .error (.gptCorrupt _) => .mismatch "backup header corrupt"
    | .error .gptHeaderCrc => .mismatch "backup header CRC"
    | .error .gptEntriesCrc => .mismatch "backup entries CRC"
    | .error _ => .mismatch "backup unreadable"
    | .ok backup =>
        if backup.length ≠ primary.length then .mismatch "partition count differs"
        else compareLists (sortByStart primary) (sortByStart backup)

end Checksums

/-! ## The MBR -/

def typeByteWithin (lba0 : List UInt8) (i : Nat) : Option UInt8 :=
  byteWithin lba0 (MbrLayout.entryAt i + MbrLayout.typeByte)

def isProtectiveTrapping (lba0 : List UInt8) : Option Bool :=
  ((List.range MbrLayout.entryCount).mapM (typeByteWithin lba0)).map fun types =>
    let nonempty := types.filter (· != MbrTypes.empty)
    nonempty.length == 1 && nonempty.all (· == MbrTypes.gptProtective)

def hasGptMarkerTrapping (lba0 : List UInt8) : Option Bool :=
  ((List.range MbrLayout.entryCount).mapM (typeByteWithin lba0)).map fun types =>
    types.any (· == MbrTypes.gptProtective)

def hasBootSignatureTrapping (lba0 : List UInt8) : Option Bool := do
  let first ← byteWithin lba0 510
  let second ← byteWithin lba0 511
  return first == 0x55 && second == 0xAA

/-- Primary entry `i`; the outer `none` is a trap. -/
def parseMbrEntryTrapping (lba0 : List UInt8) (deviceSize : UInt64) (i : Nat) :
    Option (Option Partition) := do
  let off := MbrLayout.entryAt i
  let status ← byteWithin lba0 off
  let typeByte ← typeByteWithin lba0 i
  if typeByte = MbrTypes.empty then return none
  else do
    let startingLba ← u32Within lba0 (off + MbrLayout.startLba)
    let sectors ← u32Within lba0 (off + MbrLayout.sectorCount)
    if sectors = 0 then return none
    else do
      let start ← checkedMul startingLba.toUInt64 sectorSize
      let length ← checkedMul sectors.toUInt64 sectorSize
      return some {
        start
        length
        kind := .mbr typeByte (status &&& 0x80 != 0)
        label := none
        uuid := none
        slot := some (UInt32.ofNat i)
        issues := 0
        availableLength := availableOnDevice start length deviceSize }

def parseMbrTrapping (lba0 : List UInt8) (deviceSize : UInt64) : Option (List Partition) :=
  ((List.range MbrLayout.entryCount).mapM (parseMbrEntryTrapping lba0 deviceSize)).map
    fun entries => (entries.filterMap id).filter isVolume

/-! ## The probe -/

section Checksums

variable (crc32 : List UInt8 → UInt32)

/-- The reason to refuse a 4Kn disk; the outer `none` is a trap. -/
def looksLike4knGptTrapping (dev : BlockRead) : Option (Option String) :=
  match dev.readAt fourKLba1 4096 with
  | .error _ => some none
  | .ok block =>
      (parseHeaderBlockTrapping crc32 block).run.map fun parsed => do
        let header ← parsed.toOption
        if header.myLba ≠ 1 then none
        else some ("this disk keeps its GPT at byte 4096, so its logical sectors are 4096 bytes " ++
          "(4Kn); this crate reads partition tables in 512-byte units only")

def recoverFromBackupTrapping (dev : BlockRead) (primary : Error) :
    Trapping Error (TableKind × List Partition × TableSource) := do
  match ← word (parseBackupTrapping crc32 dev).run with
  | .ok parts => exact (.ok (.gpt, parts, .recoveredFromBackup))
  | .error _ => exact (.error primary)

def probeGptTrapping (dev : BlockRead) (consultBackup : Bool) (lba1 : List UInt8) :
    Trapping Error (TableKind × List Partition × TableSource) := do
  match ← word (parseGptTrapping crc32 dev lba1).run with
  | .ok parts =>
      if consultBackup then do
        let status ← word (validateBackupTrapping crc32 dev parts)
        exact (.ok (.gpt, parts, sourceOf status))
      else exact (.ok (.gpt, parts, .primary))
  | .error primary =>
      if consultBackup then recoverFromBackupTrapping crc32 dev primary
      else exact (.error primary)

def probeMbrTrapping (dev : BlockRead) (consultBackup : Bool) (lba0 : List UInt8)
    (signed : Bool) : Trapping Error (TableKind × List Partition × TableSource) := do
  if ¬ signed then exact (.error .noPartitionTable)
  else do
    let marked ← word (hasGptMarkerTrapping lba0)
    match ← word (if marked then looksLike4knGptTrapping crc32 dev else some none) with
    | some why => exact (.error (.unsupportedSectorSize why))
    | none => do
        let protective ← word (isProtectiveTrapping lba0)
        if protective then
          let primary := .gptCorrupt "protective MBR present but no GPT signature"
          if consultBackup then recoverFromBackupTrapping crc32 dev primary
          else exact (.error primary)
        else do
          let parts ← word (parseMbrTrapping lba0 dev.sizeBytes)
          exact (.ok (.mbr, parts, .mbr))

def probeInnerTrapping (dev : BlockRead) (consultBackup : Bool) :
    Trapping Error (TableKind × List Partition × TableSource) := do
  let lba0 ← exact (dev.read 0 512)
  let lba1 ← exact (readLba1 dev)
  let signed ← word (hasBootSignatureTrapping lba0)
  let signature ← word (sliceWithin lba1 0 8)
  if signature = gptSignature then probeGptTrapping crc32 dev consultBackup lba1
  else probeMbrTrapping crc32 dev consultBackup lba0 signed

def probeTrapping (dev : BlockRead) : Trapping Error (TableKind × List Partition) := do
  let found ← probeInnerTrapping crc32 dev false
  return (found.1, found.2.1)

def probeWithStatusTrapping (dev : BlockRead) :
    Trapping Error (TableKind × List Partition × TableSource) :=
  probeInnerTrapping crc32 dev true

end Checksums

end DiskPartitions
