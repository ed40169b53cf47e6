import DiskPartitions.PartitionRecords

/-!
# Reading a master boot record

The four primary entries of LBA 0, what each one describes, and the three lists
the crate makes of them: the volumes, the entries that are not volumes, and on a
GPT disk every entry there is.
-/

namespace DiskPartitions

open Slices LittleEndian

namespace MbrLayout

def tableStart : Nat := 446
def entrySize : Nat := 16
def entryCount : Nat := 4

/-- Byte offset of entry `i` within the sector. -/
def entryAt (i : Nat) : Nat := tableStart + i * entrySize

def typeByte : Nat := 4
def startLba : Nat := 8
def sectorCount : Nat := 12

end MbrLayout

namespace MbrTypes

def empty : UInt8 := 0x00
def extendedChs : UInt8 := 0x05
def ntfsOrExfat : UInt8 := 0x07
def extendedLba : UInt8 := 0x0F
def linuxSwap : UInt8 := 0x82
def linux : UInt8 := 0x83
def linuxExtended : UInt8 := 0x85
def hfsPlus : UInt8 := 0xAF
def gptProtective : UInt8 := 0xEE
def efiSystem : UInt8 := 0xEF

end MbrTypes

/-- The three-byte CHS address of `lba`, or `FF FF FF` when it does not fit. -/
def chsForLba (lba : UInt64) : List UInt8 :=
  let perCylinder : UInt64 := 255 * 63
  let cylinder := lba / perCylinder
  if 1023 < cylinder then [0xFF, 0xFF, 0xFF]
  else
    let within := lba % perCylinder
    let head := within / 63
    let sector := within % 63 + 1
    [head.toUInt8, sector.toUInt8 ||| ((cylinder >>> 8).toUInt8 <<< 6),
      (cylinder &&& 0xFF).toUInt8]

@[simp]
theorem length_chsForLba (lba : UInt64) : (chsForLba lba).length = 3 := by
  simp only [chsForLba]
  split <;> rfl

/-- One byte of a sector. -/
def byteAt (bytes : List UInt8) (offset : Nat) : UInt8 := bytes.getD offset 0

/-- The type byte of primary entry `i`. -/
def typeByteAt (lba0 : List UInt8) (i : Nat) : UInt8 :=
  byteAt lba0 (MbrLayout.entryAt i + MbrLayout.typeByte)

/-- The sector count of primary entry `i`. -/
def sectorCountAt (lba0 : List UInt8) (i : Nat) : UInt32 :=
  u32At lba0 (MbrLayout.entryAt i + MbrLayout.sectorCount)

/-- Exactly one non-empty entry, and it is `0xEE`. -/
def isProtective (lba0 : List UInt8) : Bool :=
  let nonempty := ((List.range MbrLayout.entryCount).map (typeByteAt lba0)).filter
    (· != MbrTypes.empty)
  nonempty.length == 1 && nonempty.all (· == MbrTypes.gptProtective)

/-- Some entry is a `0xEE` GPT marker. -/
def hasGptMarker (lba0 : List UInt8) : Bool :=
  (List.range MbrLayout.entryCount).any fun i => typeByteAt lba0 i == MbrTypes.gptProtective

/-- What an MBR entry describes. -/
inductive EntryRole
  | volume
  | extendedContainer
  | gptProtective
  deriving DecidableEq, Repr

def entryRole (typeByte : UInt8) : EntryRole :=
  if typeByte = MbrTypes.extendedChs ∨ typeByte = MbrTypes.extendedLba ∨
      typeByte = MbrTypes.linuxExtended then .extendedContainer
  else if typeByte = MbrTypes.gptProtective then .gptProtective
  else .volume

/-- Primary entry `i`, unless it is empty or has no sectors. -/
def parseMbrEntry (lba0 : List UInt8) (deviceSize : UInt64) (i : Nat) : Option Partition :=
  let off := MbrLayout.entryAt i
  let status := byteAt lba0 off
  let typeByte := typeByteAt lba0 i
  if typeByte = MbrTypes.empty then none
  else
    let startingLba := u32At lba0 (off + MbrLayout.startLba)
    let sectors := sectorCountAt lba0 i
    if sectors = 0 then none
    else
      let start := startingLba.toUInt64 * sectorSize
      let length := sectors.toUInt64 * sectorSize
      some {
        start
        length
        kind := .mbr typeByte (status &&& 0x80 != 0)
        label := none
        uuid := none
        slot := some (UInt32.ofNat i)
        issues := 0
        availableLength := availableOnDevice start length deviceSize }

/-- Every non-empty primary entry, containers and markers included. -/
def parseAllEntries (lba0 : List UInt8) (deviceSize : UInt64) : List Partition :=
  (List.range MbrLayout.entryCount).filterMap (parseMbrEntry lba0 deviceSize)

/-- Whether a parsed entry is a volume. -/
def isVolume (p : Partition) : Bool :=
  match p.kind with
  | .mbr typeByte _ => entryRole typeByte == .volume
  | _ => true

/-- The volumes among the primary entries. -/
def parseMbr (lba0 : List UInt8) (deviceSize : UInt64) : List Partition :=
  (parseAllEntries lba0 deviceSize).filter isVolume

/-- A primary entry held as the sixteen bytes it was read as. -/
structure ReservedEntry where
  slot : UInt32
  entry : Bytes16
  deriving DecidableEq

namespace ReservedEntry

def typeByte (r : ReservedEntry) : UInt8 := byteAt r.entry.bytes MbrLayout.typeByte

/-- A 32-bit field of the entry. -/
def field (r : ReservedEntry) (offset : Nat) : UInt64 :=
  (u32At r.entry.bytes offset).toUInt64

/-- The inclusive LBA range the entry claims, if a new partition must stay out of it. -/
def span (r : ReservedEntry) : Option (UInt64 × UInt64) :=
  if r.typeByte = MbrTypes.gptProtective then none
  else
    let start := r.field MbrLayout.startLba
    let count := r.field MbrLayout.sectorCount
    if count ≠ 0 then some (start, start + count - 1) else none

end ReservedEntry

/-- Primary entry `i`, when the volume list leaves it out. -/
def reservedEntryAt (lba0 : List UInt8) (i : Nat) : Option ReservedEntry :=
  let typeByte := typeByteAt lba0 i
  if typeByte = MbrTypes.empty then none
  else if entryRole typeByte = .volume ∧ sectorCountAt lba0 i ≠ 0 then none
  else some ⟨UInt32.ofNat i, bytes16At lba0 (MbrLayout.entryAt i)⟩

/-- Every non-empty entry that is not reported as a volume. -/
def reservedEntries (lba0 : List UInt8) : List ReservedEntry :=
  (List.range MbrLayout.entryCount).filterMap (reservedEntryAt lba0)

/-- Whether the sector ends in the boot signature. -/
def hasBootSignature (lba0 : List UInt8) : Bool :=
  byteAt lba0 510 == 0x55 && byteAt lba0 511 == 0xAA

/-- Every non-empty entry of a GPT disk's LBA 0. -/
def lba0Entries (lba0 : List UInt8) : List ReservedEntry :=
  if ¬ hasBootSignature lba0 then []
  else
    (List.range MbrLayout.entryCount).filterMap fun i =>
      if typeByteAt lba0 i = MbrTypes.empty then none
      else some ⟨UInt32.ofNat i, bytes16At lba0 (MbrLayout.entryAt i)⟩

end DiskPartitions
