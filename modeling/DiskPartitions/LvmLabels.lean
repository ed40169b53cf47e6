import DiskPartitions.CyclicSums
import DiskPartitions.LvmMetadata

/-!
# Physical-volume labels and metadata areas

A physical volume carries a label in one of its first four sectors, which names its UUID
and its metadata areas.  An area holds the newest metadata text in a ring behind a
checksummed header.  Among the areas of a device, and among the devices of a group, the
text with the highest sequence number is the one that is read.
-/

namespace DiskPartitions

open Slices LittleEndian Refusals Utf8

def labelScanSectors : Nat := 4

/-- `LABELONE` -/
def labelId : List UInt8 := [0x4c, 0x41, 0x42, 0x45, 0x4c, 0x4f, 0x4e, 0x45]

/-- `LVM2 001` -/
def labelType : List UInt8 := [0x4c, 0x56, 0x4d, 0x32, 0x20, 0x30, 0x30, 0x31]

/-- ` LVM2 x[5A%r0N*>` -/
def mdaMagic : List UInt8 :=
  [0x20, 0x4c, 0x56, 0x4d, 0x32, 0x20, 0x78, 0x5b, 0x35, 0x41, 0x25, 0x72, 0x30, 0x4e, 0x2a, 0x3e]

/-- Size of the metadata area header; the text starts after it. -/
def mdaHeaderSize : Nat := 512

/-- Metadata text larger than this is refused. -/
def maxMetadata : Nat := 16 <<< 20

/-- The flag of a metadata area that is not to be read. -/
def rawLocnIgnored : Nat := 0x1

/-- The reflected CRC-32 polynomial with a seed of its own and no final inversion. -/
def lvmCrc (bytes : List UInt8) : UInt32 :=
  CyclicSums.register 0xEDB88320 0xf597a6cf bytes

/-- A physical volume's label; areas are an offset and a size in bytes. -/
structure PvLabel where
  labelSector : Nat
  uuid : String
  deviceSize : Nat
  dataAreas : List (Nat × Nat)
  metadataAreas : List (Nat × Nat)
  deriving DecidableEq, Repr

/-- A read of a physical volume, its failure lifted into the volume's errors. -/
def BlockRead.readLvm (dev : BlockRead) (offset len : Nat) : Except LvmError (List UInt8) :=
  (dev.readAt offset len).mapError .block

/-- An area list from `place` on, and where it ends; `fit` entries have room in the sector. -/
def readAreas (s : List UInt8) : Nat → Nat → Except LvmError (List (Nat × Nat) × Nat)
  | 0, _ => .error (.corrupt "unterminated area list")
  | fit + 1, place =>
      let off := field s place 8
      let size := field s (place + 8) 8
      if off = 0 then .ok ([], place + 16)
      else do
        let (areas, finish) ← readAreas s fit (place + 16)
        .ok ((off, size) :: areas, finish)

/-- The label in sector `s`, which carries the label's name and its own number. -/
def parseLabel (s : List UInt8) (sector device : Nat) : Except LvmError PvLabel := do
  refuseIf ((lvmCrc (s.drop 20)).toNat ≠ field s 16 4) (.badChecksum device "label")
  refuseIf (slice s 24 8 ≠ labelType)
    (.unsupported s!"label type {(fromUtf8Lossy (slice s 24 8)).quote}")
  let place := field s 20 4
  refuseIf (place < 32 ∨ lvmSector < place + 40) (.corrupt s!"pv_header offset {place}")
  let start := place + 40
  let (dataAreas, next) ← readAreas s ((lvmSector - start) / 16) start
  let (metadataAreas, _) ← readAreas s ((lvmSector - next) / 16) next
  .ok {
    labelSector := sector
    uuid := fromUtf8Lossy (slice s place 32)
    deviceSize := field s (place + 32) 8
    dataAreas
    metadataAreas }

/-- The label in the first of the given sectors that has one. -/
def scanLabel (dev : BlockRead) (device : Nat) : List Nat → Except LvmError (Option PvLabel)
  | [] => .ok none
  | sector :: rest =>
      if dev.sizeBytes.toNat < (sector + 1) * lvmSector then .ok none
      else do
        let s ← dev.readLvm (sector * lvmSector) lvmSector
        if slice s 0 8 ≠ labelId ∨ field s 8 8 ≠ sector then scanLabel dev device rest
        else do
          let label ← parseLabel s sector device
          .ok (some label)

/-- The label of a device; `none` when it carries none. -/
def readPvLabelOf (dev : BlockRead) (device : Nat) : Except LvmError (Option PvLabel) :=
  scanLabel dev device (List.range labelScanSectors)

/-! ## Metadata areas -/

/-- The text at `off` of an area, `len` bytes long: a ring from the end of the header to
the end of the area. -/
def readRing (dev : BlockRead) (start size off len : Nat) : Except LvmError (List UInt8) := do
  let first := min (size - off) len
  let head ← dev.readLvm (start + off) first
  if first < len then do
    refuseIf (size < mdaHeaderSize + (len - first)) (.corrupt "metadata wraps past its area")
    let tail ← dev.readLvm (start + mdaHeaderSize) (len - first)
    .ok (head ++ tail)
  else .ok head

/-- The text in the metadata area at `start`, `size` bytes long; `none` when the area holds
none that is to be read. -/
def readArea (dev : BlockRead) (start size device : Nat) : Except LvmError (Option String) := do
  refuseIf (size ≤ mdaHeaderSize ∨ 2 ^ 64 ≤ start + size ∨ dev.sizeBytes.toNat < start + size)
    (.corrupt s!"metadata area {start}+{size} on a {dev.sizeBytes.toNat}-byte device")
  let h ← dev.readLvm start mdaHeaderSize
  refuseIf ((lvmCrc (h.drop 4)).toNat ≠ field h 0 4) (.badChecksum device "metadata area header")
  refuseIf (slice h 4 16 ≠ mdaMagic) (.corrupt "metadata area magic")
  let off := field h 40 8
  let len := field h 48 8
  if off = 0 ∨ len = 0 ∨ field h 60 4 &&& rawLocnIgnored ≠ 0 then .ok none
  else do
    refuseIf (maxMetadata < len ∨ off < mdaHeaderSize ∨ size ≤ off)
      (.corrupt s!"metadata at {off}+{len}")
    let text ← readRing dev start size off len
    refuseIf ((lvmCrc text).toNat ≠ field h 56 4) (.badChecksum device "metadata text")
    .ok (some (fromUtf8Lossy (text.takeWhile (· ≠ 0))))

/-- The newest text met so far with its number, and the first error. -/
structure NewestText where
  newest : Option (Nat × String)
  firstError : Option LvmError

/-- One more area: a copy that cannot be read or does not parse only leaves its error. -/
def NewestText.addArea (dev : BlockRead) (device : Nat) (found : NewestText)
    (area : Nat × Nat) : NewestText :=
  let failed := fun error => { found with firstError := found.firstError.or (some error) }
  match readArea dev area.1 area.2 device with
  | .ok none => found
  | .error error => failed error
  | .ok (some text) =>
      match parseMetadata text >>= VolumeGroup.fromMetadata with
      | .error error => failed error
      | .ok vg =>
          if found.newest.all fun best => decide (best.1 < vg.seqno) then
            { found with newest := some (vg.seqno, text) }
          else found

/-- The newest metadata text among the areas of a label. -/
def readMetadataTextOf (dev : BlockRead) (label : PvLabel) (device : Nat) :
    Except LvmError (Option String) :=
  let found := label.metadataAreas.foldl (NewestText.addArea dev device) ⟨none, none⟩
  match found.newest, found.firstError with
  | some (_, text), _ => .ok (some text)
  | none, some error => .error error
  | none, none => .ok none

/-- The label a device must have. -/
def requireLabel (dev : BlockRead) (device : Nat) : Except LvmError PvLabel := do
  let label ← readPvLabelOf dev device
  orRefuse label (.noLabel device)

/-- One more device of the group: its metadata wins when its number is higher. -/
def newerGroup (best : Option VolumeGroup) (dev : BlockRead × Nat) :
    Except LvmError (Option VolumeGroup) := do
  let label ← requireLabel dev.1 dev.2
  match ← readMetadataTextOf dev.1 label dev.2 with
  | none => .ok best
  | some text => do
      let top ← parseMetadata text
      let vg ← VolumeGroup.fromMetadata top
      .ok (if best.all fun b => decide (b.seqno < vg.seqno) then some vg else best)

/-- The volume group the devices belong to: the highest `seqno` among them wins. -/
def readVolumeGroup (devices : List BlockRead) : Except LvmError VolumeGroup := do
  let best ← devices.zipIdx.foldlM newerGroup none
  orRefuse best (.corrupt "no physical volume holds metadata")

end DiskPartitions
