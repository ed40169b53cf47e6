import DiskPartitions.BlockDevices
import DiskPartitions.CheckedWords
import DiskPartitions.Refusals

/-!
# Superblocks of `md` members

A member of a Linux software RAID array describes the array in a superblock: a
checksummed 1.x one at the start of the device, 4 KiB in or near its end, or a
0.90 one at its end.  Sizes and offsets are in bytes, converted from the
sectors and kibibytes the superblock counts in.  Numbers are natural numbers
below the range of the field they come from.
-/

namespace DiskPartitions

open Slices LittleEndian Refusals CheckedWords

def mdMagic : Nat := 0xa92b4efc

/-- Bytes in the sectors every superblock counts in. -/
def mdSector : Nat := 512

/-- Size of the fixed part of a 1.x superblock, before the role table. -/
def v1Fixed : Nat := 256

/-- The role table holds at most this many entries. -/
def v1MaxDev : Nat := (4096 - v1Fixed) / 2

def v0Size : Nat := 4096

/-- A 0.90 superblock lives in the last aligned region of this size. -/
def v0Reserved : Nat := 64 * 1024

/-- The member is only partly recovered. -/
def featureRecoveryOffset : Nat := 0x2

/-- A reshape is in progress. -/
def featureReshapeActive : Nat := 0x4

inductive MdVersion
  | v0_90
  | v1_0
  | v1_1
  | v1_2
  deriving DecidableEq, Repr

/-- What a member is to its array. -/
inductive MdRole
  | active (slot : Nat)
  | spare
  | faulty
  | journal
  deriving DecidableEq, Repr

/-- One member's superblock, decoded. -/
structure MdSuperblock where
  version : MdVersion
  superblockOffset : Nat
  arrayUuid : List UInt8
  level : Int
  layout : Nat
  chunkBytes : Nat
  raidDisks : Nat
  role : MdRole
  dataOffset : Nat
  dataSize : Nat
  componentSize : Nat
  events : Nat
  featureMap : Nat
  deriving DecidableEq, Repr

/-- Why a set of members could not be read as an array. -/
inductive MdError
  | block (error : BlockError)
  | noSuperblock (member : Nat)
  | badChecksum (member stored computed : Nat)
  | corrupt (member : Nat) (reason : String)
  | mixedArrays (member : Nat)
  | duplicateRole (slot : Nat)
  | tooFewMembers (level : Int) (present needed : Nat)
  | noCopyLeft (slots : List Nat)
  | unsupported (reason : String)
  | empty
  deriving DecidableEq, Repr

/-- A 32-bit field as a signed number. -/
def signed32 (value : Nat) : Int :=
  if value < 2 ^ 31 then value else value - 2 ^ 32

/-- The sum of the little-endian words with the checksum field left out, the
64-bit total folded once into 32 bits. -/
def v1Checksum (sb : List UInt8) : Nat :=
  let words := sb.length / 4
  let sum := (List.range words).foldl
    (fun sum word => if word * 4 ≠ 216 then sum + field sb (word * 4) 4 else sum) 0
  let sum := if words * 4 + 2 ≤ sb.length then sum + field sb (words * 4) 2 else sum
  (sum % 2 ^ 32 + sum / 2 ^ 32) % 2 ^ 32

/-- Sectors as bytes, refused when they leave a word. -/
def sectorsToBytes (member sectors : Nat) (what : String) : Except MdError Nat :=
  if sectors * mdSector < 2 ^ 64 then .ok (sectors * mdSector)
  else .error (.corrupt member s!"{what} overflows")

/-- The role the role table gives a device. -/
def roleOf (value : Nat) : MdRole :=
  if value = 0xffff then .spare
  else if value = 0xfffe then .faulty
  else if value = 0xfffd then .journal
  else .active value

/-- Decode a 1.x superblock read from `place` on a device of `devSize` bytes;
`none` when the magic, the major version or the recorded place is not there. -/
def parseV1 (buf : List UInt8) (place : Nat) (version : MdVersion) (devSize member : Nat) :
    Except MdError (Option MdSuperblock) :=
  if field buf 0 4 ≠ mdMagic ∨ field buf 4 4 ≠ 1 then .ok none
  else if field buf 144 8 * mdSector ≠ place then .ok none
  else do
    let maxDev := field buf 220 4
    refuseIf (v1MaxDev < maxDev) (.corrupt member s!"max_dev {maxDev} exceeds 4 KiB")
    let stored := field buf 216 4
    let computed := v1Checksum (slice buf 0 (v1Fixed + 2 * maxDev))
    refuseIf (stored ≠ computed) (.badChecksum member stored computed)
    let dataOffset ← sectorsToBytes member (field buf 128 8) "data_offset"
    let dataSize ← sectorsToBytes member (field buf 136 8) "data_size"
    let componentSize ← sectorsToBytes member (field buf 80 8) "size"
    refuseIf (devSize < dataOffset + dataSize) (.corrupt member
      s!"data area {dataOffset}+{dataSize} runs past the device ({devSize} bytes)")
    let devNumber := field buf 160 4
    refuseIf (maxDev ≤ devNumber) (.corrupt member
      s!"dev_number {devNumber} is outside the role table ({maxDev})")
    .ok (some {
      version
      superblockOffset := place
      arrayUuid := slice buf 16 16
      level := signed32 (field buf 72 4)
      layout := field buf 76 4
      chunkBytes := field buf 88 4 * mdSector
      raidDisks := field buf 92 4
      role := roleOf (field buf (v1Fixed + 2 * devNumber) 2)
      dataOffset
      dataSize
      componentSize
      events := field buf 200 8
      featureMap := field buf 8 4 })

/-- The role a 0.90 descriptor's state bits give: faulty, active and in sync, or
spare. -/
def v0Role (state raidDisk : Nat) : MdRole :=
  if state.testBit 0 then .faulty
  else if state.testBit 1 ∧ state.testBit 2 then .active raidDisk
  else .spare

/-- Decode a 0.90 superblock; `none` when it is not one. -/
def parseV0 (buf : List UInt8) (place member : Nat) : Except MdError (Option MdSuperblock) :=
  let w := fun word => field buf (word * 4) 4
  if w 0 ≠ mdMagic ∨ w 1 ≠ 0 ∨ w 2 ≠ 90 then .ok none
  else do
    let componentSize := w 8 * 1024
    refuseIf (place < componentSize) (.corrupt member
      s!"size {componentSize} runs into the superblock at {place}")
    .ok (some {
      version := .v0_90
      superblockOffset := place
      arrayUuid := [5, 13, 14, 15].flatMap fun word => slice buf (word * 4) 4
      level := signed32 (w 7)
      layout := w 64
      chunkBytes := w 65
      raidDisks := w 10
      role := v0Role (w (992 + 4)) (w (992 + 3))
      dataOffset := 0
      dataSize := place
      componentSize
      events := field buf (39 * 4) 8
      featureMap := 0 })

/-- A read of a member, its failure lifted into the array's errors. -/
def BlockRead.readMd (dev : BlockRead) (offset len : Nat) : Except MdError (List UInt8) :=
  (dev.readAt offset len).mapError .block

/-- Where the 1.x superblocks may be on a device of `size` bytes. -/
def v1Candidates (size : Nat) : List (Nat × MdVersion) :=
  [(0, .v1_1), (4096, .v1_2)] ++
    if 16 ≤ size / mdSector then [((size / mdSector - 16) / 8 * 8 * mdSector, .v1_0)] else []

/-- The first of the candidate places that holds a 1.x superblock. -/
def firstV1 (dev : BlockRead) (member : Nat) :
    List (Nat × MdVersion) → Except MdError (Option MdSuperblock)
  | [] => .ok none
  | (place, version) :: rest =>
      if dev.sizeBytes.toNat < place + 4096 then firstV1 dev member rest
      else do
        let buf ← dev.readMd place 4096
        match ← parseV1 buf place version dev.sizeBytes.toNat member with
        | some sb => .ok (some sb)
        | none => firstV1 dev member rest

/-- The superblock of one device, trying every version's location. -/
def readSuperblockOf (dev : BlockRead) (member : Nat) : Except MdError (Option MdSuperblock) := do
  let size := dev.sizeBytes.toNat
  match ← firstV1 dev member (v1Candidates size) with
  | some sb => .ok (some sb)
  | none =>
      if v0Reserved ≤ size then do
        let place := size / v0Reserved * v0Reserved - v0Reserved
        let buf ← dev.readMd place v0Size
        parseV0 buf place member
      else .ok none

end DiskPartitions
