import DiskPartitions.GptWriter
import DiskPartitions.MbrWriter
import DiskPartitions.TableProbe

/-!
# Sets of partitions under edit

A set is read off a device or started empty, edited in memory with 1 MiB
alignment and a first-fit search, and written back by a commit.
-/

namespace DiskPartitions

open Slices LittleEndian CheckedWords Refusals FallibleState

namespace TypeGuids

def efiSystem : Guid :=
  ⟨[0x28, 0x73, 0x2A, 0xC1, 0x1F, 0xF8, 0xD2, 0x11, 0xBA, 0x4B, 0x00, 0xA0, 0xC9, 0x3E, 0xC9,
    0x3B], rfl⟩

def microsoftBasicData : Guid :=
  ⟨[0xA2, 0xA0, 0xD0, 0xEB, 0xE5, 0xB9, 0x33, 0x44, 0x87, 0xC0, 0x68, 0xB6, 0xB7, 0x26, 0x99,
    0xC7], rfl⟩

def linuxFilesystem : Guid :=
  ⟨[0xAF, 0x3D, 0xC6, 0x0F, 0x83, 0x84, 0x72, 0x47, 0x8E, 0x79, 0x3D, 0x69, 0xD8, 0x47, 0x7D,
    0xE4], rfl⟩

def linuxSwap : Guid :=
  ⟨[0x6D, 0xFD, 0x57, 0x06, 0xAB, 0xA4, 0xC4, 0x43, 0x84, 0xE5, 0x09, 0x33, 0xC8, 0x4B, 0x4F,
    0x4F], rfl⟩

def appleHfsPlus : Guid :=
  ⟨[0x00, 0x53, 0x46, 0x48, 0x00, 0x00, 0xAA, 0x11, 0xAA, 0x11, 0x00, 0x30, 0x65, 0x43, 0xEC,
    0xAC], rfl⟩

def appleApfs : Guid :=
  ⟨[0xEF, 0x57, 0x34, 0x7C, 0x00, 0x00, 0xAA, 0x11, 0xAA, 0x11, 0x00, 0x30, 0x65, 0x43, 0xEC,
    0xAC], rfl⟩

end TypeGuids

/-- What a caller asks for, whatever the table. -/
inductive PartitionTypeId
  | efiSystem
  | microsoftBasicData
  | linuxFilesystem
  | linuxSwap
  | appleHfsPlus
  | appleApfs
  | gptCustom (guid : Guid)
  | mbrCustom (typeByte : UInt8)
  deriving DecidableEq

namespace PartitionTypeId

def toGptGuid : PartitionTypeId → Except Error Guid
  | efiSystem => .ok TypeGuids.efiSystem
  | microsoftBasicData => .ok TypeGuids.microsoftBasicData
  | linuxFilesystem => .ok TypeGuids.linuxFilesystem
  | linuxSwap => .ok TypeGuids.linuxSwap
  | appleHfsPlus => .ok TypeGuids.appleHfsPlus
  | appleApfs => .ok TypeGuids.appleApfs
  | gptCustom guid => .ok guid
  | mbrCustom _ => .error (.invalid "MBR type byte used in GPT context")

def toMbrByte : PartitionTypeId → Except Error UInt8
  | efiSystem => .ok MbrTypes.efiSystem
  | microsoftBasicData => .ok MbrTypes.ntfsOrExfat
  | linuxFilesystem => .ok MbrTypes.linux
  | linuxSwap => .ok MbrTypes.linuxSwap
  | appleHfsPlus => .ok MbrTypes.hfsPlus
  | appleApfs => .error (.invalid "APFS has no MBR type byte; use GPT")
  | mbrCustom typeByte => .ok typeByte
  | gptCustom _ => .error (.invalid "GPT type GUID used in MBR context")

end PartitionTypeId

/-- How a caller names a partition. -/
inductive PartitionRef
  | index (i : Nat)
  | uuid (guid : Guid)

/-- Sectors in 1 MiB. -/
def alignmentSectors : UInt64 := 2048

/-- The next multiple of `align`. -/
def alignUp (value align : UInt64) : UInt64 :=
  let rem := value % align
  if rem = 0 then value else value + (align - rem)

/-- Sixteen drawn bytes as a version 4 UUID. -/
def randomUuid (drawn : Bytes16) : Guid where
  bytes := (drawn.bytes.set 7 (byteAt drawn.bytes 7 &&& 0x0F ||| 0x40)).set 8
    (byteAt drawn.bytes 8 &&& 0x3F ||| 0x80)
  length_bytes := by rw [List.length_set, List.length_set, drawn.length_bytes]

/-- A table under edit. -/
structure PartitionSet where
  tableKind : TableKind
  partitions : List Partition
  diskSize : UInt64
  diskGuid : Guid
  gptEntryTails : EntryTails
  gptGeometry : GptGeometry
  reserved : List ReservedEntry

namespace PartitionSet

/-- Probe a device for the set it carries. -/
def fromProbe (crc32 : List UInt8 → UInt32) (dev : BlockRead) : Except Error PartitionSet := do
  let (tableKind, partitions) ← probe crc32 dev
  let diskSize := dev.sizeBytes
  let sector ← dev.read 0 512
  let reserved := if tableKind = .mbr then reservedEntries sector else lba0Entries sector
  if tableKind = .gpt then
    let sector ← dev.read 512 512
    let header ← parseHeader crc32 sector
    let gptEntryTails ← entryTails crc32 dev header
    return {
      tableKind, partitions, diskSize, reserved, gptEntryTails
      diskGuid := header.diskGuid
      gptGeometry := GptGeometry.fromHeader header }
  else
    return {
      tableKind, partitions, diskSize, reserved
      diskGuid := unusedTypeGuid
      gptGeometry := GptGeometry.canonical
      gptEntryTails := fun _ => none }

/-- An empty GPT for a disk of `diskSize` bytes. -/
def emptyGpt (diskSize : UInt64) (drawn : Bytes16) : PartitionSet where
  tableKind := .gpt
  partitions := []
  diskSize
  diskGuid := randomUuid drawn
  gptGeometry := GptGeometry.canonical
  gptEntryTails := fun _ => none
  reserved := []

/-- An empty MBR for a disk of `diskSize` bytes. -/
def emptyMbr (diskSize : UInt64) : PartitionSet where
  tableKind := .mbr
  partitions := []
  diskSize
  diskGuid := unusedTypeGuid
  gptGeometry := GptGeometry.canonical
  gptEntryTails := fun _ => none
  reserved := []

/-- The first and last LBA a partition may occupy; an inverted range is no room. -/
def usableRange (set : PartitionSet) : UInt64 × UInt64 :=
  let totalSectors := set.diskSize / sectorSize
  match set.tableKind with
  | .gpt =>
      match set.gptGeometry.usableRange totalSectors with
      | .ok range => range
      | .error _ => (GptLayout.firstUsableLba, GptLayout.firstUsableLba - 1)
  | .mbr => if totalSectors < 2 then (1, 0) else (1, min (totalSectors - 1) mbrLbaMax)

def resolve (set : PartitionSet) : PartitionRef → Except Error Nat
  | .index i =>
      if set.partitions.length ≤ i then .error (.invalid "index out of range") else .ok i
  | .uuid guid =>
      orRefuse (set.partitions.findIdx? fun p => p.uuid == some guid) (.invalid "uuid not found")

/-- The partitions except the one at index `skip`. -/
def otherPartitions (set : PartitionSet) (skip : Option Nat) : List Partition :=
  (set.partitions.zipIdx).filterMap fun entry =>
    if some entry.2 ≠ skip then some entry.1 else none

/-- The LBA ranges a new or resized partition must stay out of. -/
def occupiedSpans (set : PartitionSet) (skip : Option Nat) :
    Except Error (List (UInt64 × UInt64)) := do
  let spans ← (set.otherPartitions skip).mapM Partition.sectorSpan
  return if set.tableKind = .mbr then spans ++ set.reserved.filterMap ReservedEntry.span
    else spans

/-- The walk of the free-space search over sorted spans.  The cursor never goes back. -/
def walkSpans (lengthSectors lastUsable : UInt64) :
    List (UInt64 × UInt64) → UInt64 → Except Error UInt64
  | [], cursor =>
      if saturatingSub (saturatingAdd cursor lengthSectors) 1 ≤ lastUsable then .ok cursor
      else .error (.invalid "no free space large enough")
  | (pStart, pEnd) :: rest, cursor =>
      let wantedEnd := saturatingSub (saturatingAdd cursor lengthSectors) 1
      if wantedEnd < pStart ∧ wantedEnd ≤ lastUsable then .ok cursor
      else walkSpans lengthSectors lastUsable rest
        (max cursor (alignUp (pEnd + 1) alignmentSectors))

def findFree (set : PartitionSet) (lengthSectors firstUsable lastUsable : UInt64) :
    Except Error UInt64 := do
  let spans ← set.occupiedSpans none
  walkSpans lengthSectors lastUsable (spans.insertionSort SpanLe)
    (alignUp firstUsable alignmentSectors)

/-- The type tag a new partition gets in this set's table. -/
def newKind (set : PartitionSet) (typeId : PartitionTypeId) : Except Error PartitionKind :=
  match set.tableKind with
  | .gpt => do return .gpt (← typeId.toGptGuid) 0
  | .mbr => do return .mbr (← typeId.toMbrByte) false

/-- The LBA a new partition starts at: the hint raised to the first usable LBA and
aligned, or the first gap that is large enough. -/
def chooseStart (set : PartitionSet) (startHint : Option UInt64)
    (lengthSectors firstUsable lastUsable : UInt64) : Except Error UInt64 :=
  match startHint with
  | some byte => .ok (alignUp (max (divCeil byte sectorSize) firstUsable) alignmentSectors)
  | none => set.findFree lengthSectors firstUsable lastUsable

/-- Everything `add` does before it appends: the checks and the partition they place. -/
def place (set : PartitionSet) (startHint : Option UInt64) (length : UInt64)
    (typeId : PartitionTypeId) (label : Option String) (drawn : Bytes16) :
    Except Error Partition := do
  refuseIf (length = 0) (.invalid "zero length")
  refuseIf (set.tableKind = .mbr ∧
      MbrLayout.entryCount ≤ set.partitions.length + set.reserved.length)
    (.invalid "MBR primary table is full (4 entries)")
  refuseIf (set.tableKind = .gpt ∧ set.gptGeometry.numEntries.toNat ≤ set.partitions.length)
    (.invalid "the GPT's entry array is full")
  let lengthSectors := alignUp (divCeil length sectorSize) alignmentSectors
  let firstUsable := set.usableRange.1
  let lastUsable := set.usableRange.2
  refuseIf (lastUsable < firstUsable) .deviceTooSmall
  let startLba ← set.chooseStart startHint lengthSectors firstUsable lastUsable
  let endLba ← orRefuse (checkedAdd startLba (lengthSectors - 1))
    (.invalid "partition end overflows")
  refuseIf (lastUsable < endLba) (.invalid "partition extends past last usable LBA")
  refuseIf (set.tableKind = .mbr ∧ (mbrLbaMax < startLba ∨ mbrLbaMax < lengthSectors))
    (.invalid "partition exceeds MBR 32-bit LBA range")
  let spans ← set.occupiedSpans none
  refuseIf (∃ span ∈ spans, startLba ≤ span.2 ∧ span.1 ≤ endLba)
    (.invalid "partition overlaps existing entry")
  let kind ← set.newKind typeId
  return {
    start := startLba * sectorSize
    length := lengthSectors * sectorSize
    kind
    label
    uuid := if set.tableKind = .gpt then some (randomUuid drawn) else none
    slot := none
    issues := 0
    availableLength := lengthSectors * sectorSize }

/-- Add a partition and return its index. -/
def add (startHint : Option UInt64) (length : UInt64) (typeId : PartitionTypeId)
    (label : Option String) (drawn : Bytes16) : Fallible Error PartitionSet Nat := do
  let set ← Fallible.current
  let part ← Fallible.ofExcept (set.place startHint length typeId label drawn)
  Fallible.change fun set => { set with partitions := set.partitions ++ [part] }
  return set.partitions.length

/-- Set or clear the overlap bit. -/
def markOverlap (overlaps : Bool) (p : Partition) : Partition :=
  { p with
    issues := if overlaps then p.issues ||| EntryIssue.overlapsAnother
      else p.issues &&& ~~~ EntryIssue.overlapsAnother }

/-- Re-derive every GPT entry's overlap bit.  An entry without a span keeps its bit. -/
def refreshOverlapIssues (set : PartitionSet) : PartitionSet :=
  if set.tableKind ≠ .gpt then set
  else
    let spans := (set.partitions.zipIdx).filterMap fun entry =>
      entry.1.sectorSpan.toOption.map fun span => (entry.2, span)
    let marks := (spans.map Prod.fst).zip (markOverlaps (spans.map Prod.snd))
    { set with
      partitions := marks.foldl (fun parts mark => parts.modify mark.1 (markOverlap mark.2))
        set.partitions }

/-- Remove a partition. -/
def remove (target : PartitionRef) : Fallible Error PartitionSet Unit := do
  let set ← Fallible.current
  let index ← Fallible.ofExcept (set.resolve target)
  Fallible.change fun set => { set with partitions := set.partitions.eraseIdx index }
  Fallible.change refreshOverlapIssues

/-- Everything `resize` does before it changes the partition: which one, and its new
length in sectors. -/
def resized (set : PartitionSet) (target : PartitionRef) (newLength : UInt64) :
    Except Error (Nat × UInt64) := do
  refuseIf (newLength = 0) (.invalid "zero length")
  let index ← set.resolve target
  let newLengthSectors := alignUp (divCeil newLength sectorSize) alignmentSectors
  let lastUsable := set.usableRange.2
  -- `resolve` only answers indices of the list, so this refusal never fires.
  let p ← orRefuse set.partitions[index]? (.invalid "index out of range")
  let startLba := p.start / sectorSize
  let newEndLba ← orRefuse (checkedAdd startLba (newLengthSectors - 1))
    (.invalid "partition end overflows")
  refuseIf (lastUsable < newEndLba) (.invalid "resize extends past last usable LBA")
  refuseIf (set.tableKind = .mbr ∧ mbrLbaMax < newLengthSectors)
    (.invalid "resize exceeds MBR 32-bit LBA range")
  let spans ← set.occupiedSpans (some index)
  refuseIf (∃ span ∈ spans, startLba ≤ span.2 ∧ span.1 ≤ newEndLba)
    (.invalid "resize would overlap another partition")
  return (index, newLengthSectors)

/-- Give a partition its new length, which settles the rule about the end. -/
def setLength (newLengthSectors : UInt64) (p : Partition) : Partition :=
  { p with
    length := newLengthSectors * sectorSize
    issues := p.issues &&& ~~~ EntryIssue.pastLastUsable }

/-- Resize a partition. -/
def resize (target : PartitionRef) (newLength : UInt64) : Fallible Error PartitionSet Unit := do
  let set ← Fallible.current
  let (index, newLengthSectors) ← Fallible.ofExcept (set.resized target newLength)
  Fallible.change fun set =>
    { set with partitions := set.partitions.modify index (setLength newLengthSectors) }
  Fallible.change refreshOverlapIssues

section Checksums

variable (crc32 : List UInt8 → UInt32)

/-- The writer of the set's table. -/
def writeTable (set : PartitionSet) : DeviceM (List UInt32) :=
  match set.tableKind with
  | .gpt =>
      writeGptAssigningSlots crc32 set.partitions set.diskGuid set.gptGeometry
        set.gptEntryTails set.reserved
  | .mbr => writeMbrAssigningSlots set.partitions set.reserved

/-- Write the table, flush, and return the slot each partition took. -/
def writeAndFlush (set : PartitionSet) : DeviceM (List UInt32) := do
  let slots ← set.writeTable crc32
  DeviceM.flush
  return slots

/-- Serialise the set to a device. -/
def commit (set : PartitionSet) : DeviceM Unit := do
  let _ ← set.writeAndFlush crc32
  return ()

/-- The set with the slots its partitions were written into. -/
def recordSlots (slots : List UInt32) (set : PartitionSet) : PartitionSet :=
  { set with
    partitions := set.partitions.mapIdx fun i p =>
      match slots[i]? with
      | some slot => { p with slot := some slot }
      | none => p }

/-- As `commit`, and record the slots once the write and the flush have succeeded. -/
def commitMut : Fallible Error (PartitionSet × ByteDevice) Unit := do
  let state ← Fallible.current
  let slots ← Fallible.onSecond (state.1.writeAndFlush crc32)
  Fallible.change fun state => (state.1.recordSlots slots, state.2)

end Checksums

end PartitionSet

/-! ## Runs of edits -/

/-- One call of the editing interface, with the bytes a new UUID is drawn from. -/
inductive Edit
  | add (startHint : Option UInt64) (length : UInt64) (typeId : PartitionTypeId)
      (label : Option String) (drawn : Bytes16)
  | remove (target : PartitionRef)
  | resize (target : PartitionRef) (newLength : UInt64)

namespace Edit

/-- The set a call leaves, whether it succeeds or fails. -/
def apply (set : PartitionSet) : Edit → PartitionSet
  | add startHint length typeId label drawn =>
      ((PartitionSet.add startHint length typeId label drawn).exec set).2
  | remove target => ((PartitionSet.remove target).exec set).2
  | resize target newLength => ((PartitionSet.resize target newLength).exec set).2

/-- The set a run of calls leaves. -/
def applyAll (edits : List Edit) (set : PartitionSet) : PartitionSet :=
  edits.foldl apply set

end Edit

end DiskPartitions
