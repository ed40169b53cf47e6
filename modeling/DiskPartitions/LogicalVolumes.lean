import DiskPartitions.LvmLabels
import DiskPartitions.ThinPools

/-!
# Opening and reading a logical volume

The segments of a logical volume are resolved to runs over the devices: striped extents,
RAID or mirror images, and thin blocks.  Images and the sub-volumes of a thin pool are
volumes of their own, so a run is given over a type of sub-volumes and the volumes of each
depth are built from those one level less deep.  Sums and products the source does not check
wrap at the word's range.
-/

namespace DiskPartitions

open LittleEndian Refusals BufferedReads

/-! ## Runs -/

/-- A RAID or mirror segment: its images in order, `none` for one on a physical volume that
was not given. -/
structure RaidMap (V : Type) where
  level : Int
  raid10 : Option Raid10
  layout : Nat
  chunk : Nat
  dataOffset : Nat
  images : List (Option V)

/-- A thin volume, as its pool keeps it. -/
structure ThinMap (V : Type) where
  block : Nat
  metadata : V
  data : V
  root : Nat

/-- How a run's bytes are laid out.  A stripe is a device and the byte its first extent
starts at. -/
inductive RunMap (V : Type)
  | striped (stripeSize : Nat) (stripes : List (Nat × Nat))
  | raid (map : RaidMap V)
  | thin (map : ThinMap V)

/-- One mapped run of a logical volume. -/
structure Run (V : Type) where
  start : Nat
  len : Nat
  map : RunMap V

/-- The volumes whose sub-volumes nest at most `levels` deep, themselves counted. -/
def Volume : Nat → Type
  | 0 => Empty
  | levels + 1 => List (Run (Volume levels))

/-! ## Reads -/

/-- A failure of the metadata, as the block layer reports it. -/
def LvmError.toBlock : LvmError → BlockError
  | .block error => error
  | error => .custom error.message

/-- Reads of one of the devices; the runs name no other. -/
def readDevice (devices : List BlockRead) (dev off len : Nat) : Except BlockError (List UInt8) :=
  match devices[dev]? with
  | some device => device.readAt off len
  | none => .error (.custom "no such device")

/-- The part of a read that lies in the stripe at `within`. -/
def readStriped (devices : List BlockRead) (stripeSize : Nat) (stripes : List (Nat × Nat))
    (within want : Nat) : Except BlockError (List UInt8) :=
  if stripes.length = 1 then
    let (dev, off) := stripes.getD 0 (0, 0)
    readDevice devices dev (off + within) want
  else
    let n := stripes.length
    let k := within / stripeSize
    let inner := within % stripeSize
    let (dev, off) := stripes.getD (k % n) (0, 0)
    readDevice devices dev (off + k / n * stripeSize + inner) (min (stripeSize - inner) want)

section Reads

variable {V : Type} (read : V → Nat → Nat → Except BlockError (List UInt8))

/-- An image's data region, as `md` reads a member. -/
def RaidMap.readMember (raid : RaidMap V) : ReadMember := fun slot off len =>
  match raid.images.getD slot none with
  | some image => do
      let bytes ← read image ((raid.dataOffset + off) % 2 ^ 64) len
      .ok (some bytes)
  | none => .ok none

/-- The first image that can be read; `last` is the failure met so far. -/
def readImages (place want : Nat) :
    List (Option V) → Option BlockError → Except BlockError (List UInt8)
  | [], last => .error (last.getD (.custom "no image of the mirror is present"))
  | none :: rest, last => readImages place want rest last
  | some image :: rest, _ =>
      match read image (place % 2 ^ 64) want with
      | .ok bytes => .ok bytes
      | .error error => readImages place want rest (some error)

def RaidMap.striping (raid : RaidMap V) : Striping where
  level := raid.level
  layout := raid.layout
  chunk := raid.chunk
  members := raid.images.length
  raid10 := raid.raid10

/-- The part of a read of a RAID segment that lies in the chunk at `within`, or at level 1
all of it. -/
def RaidMap.readPiece (raid : RaidMap V) (within want : Nat) : Except BlockError (List UInt8) :=
  if raid.level = levelRaid1 then readImages read (raid.dataOffset + within) want raid.images none
  else
    let inner := within % raid.chunk
    readChunk raid.striping (raid.readMember read) (within / raid.chunk) inner
      (min (raid.chunk - inner) want)

/-- Read a thin volume's bytes from `within` up to the end of its block. -/
def readThin (thin : ThinMap V) (within want : Nat) : Except BlockError (List UInt8) := do
  let inner := within % thin.block
  let take := min (thin.block - inner) want
  let mapped ← (dataBlock (read thin.metadata) thin.root (within / thin.block)).mapError
    LvmError.toBlock
  match mapped with
  | some db => do
      refuseIf (2 ^ 64 ≤ db * thin.block + inner) (.custom s!"thin data block {db} overflows")
      read thin.data (db * thin.block + inner) take
  | none => .ok (List.replicate take 0)

def readMap (devices : List BlockRead) (map : RunMap V) (within want : Nat) :
    Except BlockError (List UInt8) :=
  match map with
  | .striped stripeSize stripes => readStriped devices stripeSize stripes within want
  | .raid raid => raid.readPiece read within want
  | .thin thin => readThin read thin within want

/-- Read at a position of the volume `runs` describe, up to where its run, stripe, chunk or
block ends. -/
def readRunPiece (devices : List BlockRead) (runs : List (Run V)) (position left : Nat) :
    Except BlockError (List UInt8) :=
  let pos := position % 2 ^ 64
  match runs.find? fun r => r.start ≤ pos ∧ pos < (r.start + r.len) % 2 ^ 64 with
  | none =>
      .error (.outOfBounds pos left
        ((runs.getLast?.map fun r => (r.start + r.len) % 2 ^ 64).getD 0))
  | some run =>
      readMap read devices run.map (pos - run.start)
        (min ((run.start + run.len) % 2 ^ 64 - pos) left)

def readRuns (devices : List BlockRead) (runs : List (Run V)) (offset len : Nat) :
    Except BlockError (List UInt8) :=
  readWhole (readRunPiece read devices runs) offset len

end Reads

/-- Read a volume through the volumes it is made of. -/
def readVolume (devices : List BlockRead) :
    (levels : Nat) → Volume levels → Nat → Nat → Except BlockError (List UInt8)
  | 0, volume => nomatch volume
  | levels + 1, runs => readRuns (readVolume devices levels) devices runs

/-! ## The dm-raid superblock -/

def dmRaidMagic : Nat := 0x64526d44
def dmRaidCompatV190 : Nat := 0x1
def dmRaidSize : Nat := 120

/-- The parts of a dm-raid superblock reading needs. -/
structure DmRaidSuper where
  level : Int
  layout : Nat
  chunk : Nat
  dataOffset : Nat
  deriving DecidableEq, Repr

def parseDmRaidSuper (b : List UInt8) (what : String) : Except LvmError DmRaidSuper := do
  refuseIf (b.length < dmRaidSize ∨ field b 0 4 ≠ dmRaidMagic)
    (.corrupt s!"{what}: no dm-raid superblock")
  -- before version 1.9.0 of the format the data starts at 0
  let sectors := if field b 4 4 &&& dmRaidCompatV190 ≠ 0 then field b 96 8 else 0
  refuseIf (2 ^ 64 ≤ sectors * lvmSector) (.corrupt s!"{what}: data offset overflows")
  .ok {
    level := signed32 (field b 48 4)
    layout := field b 52 4
    chunk := field b 56 4 * lvmSector
    dataOffset := sectors * lvmSector }

/-- A RAID segment can be read with the images that are present: one at level 1, a copy of
every chunk at level 10, and all but one or two at levels 5 and 6. -/
def survives {V : Type} (level : Int) (raid10 : Option Raid10) (images : List (Option V)) : Bool :=
  let n := images.length
  let missing := images.countP Option.isNone
  if level = levelRaid1 then decide (missing < n)
  else
    match decide (level = levelRaid10), raid10 with
    | true, some geo =>
        (List.range n).all fun c =>
          (geo.copies n c).any fun place => (images.getD place.1 none).isSome
    | _, _ => if level = levelRaid6 then decide (missing ≤ 2) else decide (missing ≤ 1)

/-! ## Resolving segments -/

/-- What resolving a volume's segments needs from the group and the devices. -/
structure Mapper where
  vg : VolumeGroup
  uuidToDev : List (String × Nat)
  devices : List BlockRead

namespace Mapper

def lv (mapper : Mapper) (name : String) : Except LvmError LogicalVolumeInfo :=
  orRefuse (mapper.vg.logicalVolumes.find? fun lv => lv.name = name) (.noSuchVolume name)

/-- The device with a UUID; the last one given wins. -/
def deviceOf (mapper : Mapper) (uuid : String) : Option Nat :=
  (mapper.uuidToDev.find? fun entry => entry.1 = uuid).map Prod.snd

/-- The device and the byte a stripe starts at, once its extents are found on both. -/
def stripeStart (mapper : Mapper) (name : String) (perStripe : Nat) (st : Stripe) :
    Except LvmError (Nat × Nat) := do
  let ext := mapper.vg.extentSize
  let pv ← orRefuse (mapper.vg.physicalVolumes.find? fun pv => pv.name = st.pv)
    (.corrupt s!"unknown PV {st.pv}")
  let dev ← orRefuse (mapper.deviceOf pv.uuid) (.missingPv pv.uuid)
  refuseIf (2 ^ 64 ≤ st.startExtent + perStripe ∨ pv.peCount < st.startExtent + perStripe)
    (.corrupt s!"{name}: stripe past {st.pv}")
  let off := st.startExtent * ext + pv.peStart
  refuseIf (2 ^ 64 ≤ off) (.corrupt "extent offset overflows")
  let size := (mapper.devices[dev]?.map fun device => device.sizeBytes.toNat).getD 0
  refuseIf (2 ^ 64 ≤ off + perStripe * ext ∨ size < off + perStripe * ext)
    (.corrupt s!"{name}: stripe runs past the end of {st.pv}")
  .ok (dev, off)

def striped {V : Type} (mapper : Mapper) (name : String) (seg : Segment) :
    Except LvmError (RunMap V) := do
  let ext := mapper.vg.extentSize
  let n := seg.stripes.length
  refuseIf (n = 0 ∨ seg.extentCount % n ≠ 0)
    (.corrupt s!"{name}: {seg.extentCount} extents over {n} stripes")
  let perStripe := seg.extentCount / n
  let stripes ← seg.stripes.mapM (mapper.stripeStart name perStripe)
  refuseIf (1 < n ∧ perStripe * ext % seg.stripeSize ≠ 0)
    (.unsupported s!"{name}: stripe size {seg.stripeSize} does not divide the extent run")
  .ok (.striped seg.stripeSize stripes)

section Sub

variable {V : Type} (sub : String → Except LvmError (V × Nat))
  (read : V → Nat → Nat → Except BlockError (List UInt8))

/-- The image volumes in order, and the first physical volume found missing. -/
def imageRuns : List String → Option LvmError →
    Except LvmError (List (Option V) × Option LvmError)
  | [], gone => .ok ([], gone)
  | image :: rest, gone =>
      match sub image with
      | .ok (runs, _) => do
          let (images, gone) ← imageRuns rest gone
          .ok (some runs :: images, gone)
      | .error (.missingPv uuid) => do
          let (images, gone) ← imageRuns rest (gone.or (some (.missingPv uuid)))
          .ok (none :: images, gone)
      | .error error => .error error

def images (seg : Segment) : Except LvmError (List (Option V) × Option LvmError) := do
  refuseIf (seg.images = []) (.corrupt "a raid or mirror segment with no images")
  imageRuns sub seg.images none

/-- The superblock of the first metadata sub-volume that is present. -/
def raidSuper : List String → Option LvmError → Except LvmError DmRaidSuper
  | [], gone => .error (gone.getD (.corrupt "images and metadata are as many, and not none"))
  | rmeta :: rest, gone =>
      match sub rmeta with
      | .ok (runs, _) => do
          let b ← (read runs 0 dmRaidSize).mapError .block
          parseDmRaidSuper b rmeta
      | .error (.missingPv uuid) => raidSuper rest (gone.or (some (.missingPv uuid)))
      | .error error => .error error

/-- The level `md` reads a dm-raid level at, and how many of a row's chunks are parity. -/
def mdLevel (name : String) (level : Int) : Except LvmError (Int × Nat) :=
  if level = 1 then .ok (levelRaid1, 0)
  else if level = 4 ∨ level = 5 then .ok (levelRaid5, 1)
  else if level = 6 then .ok (levelRaid6, 2)
  else if level = 10 then .ok (levelRaid10, 0)
  else .error (.unsupported s!"{name}: dm-raid level {level}")

/-- The copies of a level 10 segment; only the near layout is read. -/
def nearCopies (name : String) (level : Int) (layout n : Nat) :
    Except LvmError (Option Raid10) :=
  if level = levelRaid10 then do
    let near := layout % 256
    refuseIf (layout - near ≠ 256) (.unsupported
      s!"{name}: raid10 layout {hex layout}; only the near layout is read, not dm-raid's far or offset ones")
    refuseIf (near = 0 ∨ n < near)
      (.corrupt s!"{name}: raid10 with {near} near copies over {n} images")
    .ok (some (Raid10.ofNear near))
  else .ok none

/-- Images that do not suffice are refused with the physical volume that is missing. -/
def requireSurvives (level : Int) (raid10 : Option Raid10) (images : List (Option V))
    (gone : Option LvmError) : Except LvmError Unit :=
  -- `expect`: an image is missing
  refuseIf (¬ survives level raid10 images) (gone.getD (.corrupt "an image is missing"))

def raid (name : String) (seg : Segment) : Except LvmError (RunMap V) := do
  refuseIf (seg.metadata.length ≠ seg.images.length) (.corrupt
    s!"{name}: {seg.images.length} images and {seg.metadata.length} metadata sub-volumes")
  let (images, gone) ← images sub seg
  let n := images.length
  let sb ← raidSuper sub read seg.metadata none
  let (level, parity) ← mdLevel name sb.level
  let raid10 ← nearCopies name level sb.layout n
  refuseIf (level ≠ levelRaid1 ∧ (sb.chunk = 0 ∨ n ≤ parity))
    (.corrupt s!"{name}: raid{sb.level} with {n} images and a {sb.chunk}-byte chunk")
  requireSurvives level raid10 images gone
  .ok (.raid {
    level
    raid10
    layout := sb.layout
    chunk := sb.chunk
    dataOffset := sb.dataOffset
    images })

def mirror (seg : Segment) : Except LvmError (RunMap V) := do
  let (images, gone) ← images sub seg
  requireSurvives levelRaid1 none images gone
  .ok (.raid {
    level := levelRaid1
    raid10 := none
    layout := 0
    chunk := 0
    dataOffset := 0
    images })

/-- The data and metadata sub-volumes of a thin pool. -/
def poolVolumes (mapper : Mapper) (name poolName : String) : Except LvmError (String × String) := do
  let pool ← mapper.lv poolName
  match pool.segments with
  | [pseg] =>
      match decide (pseg.kind = "thin-pool"), pseg.images, pseg.metadata with
      | true, [tdata], [tmeta] => .ok (tdata, tmeta)
      | _, _, _ => .error (.corrupt s!"{name}: its thin_pool {poolName} is not a thin pool")
  | _ => .error (.unsupported s!"{poolName}: a thin pool of {pool.segments.length} segments")

def thin (mapper : Mapper) (name : String) (seg : Segment) : Except LvmError (RunMap V) := do
  let origin := seg.externalOrigin.getD ""
  refuseIf (seg.externalOrigin.isSome)
    (.unsupported s!"{name}: a thin volume over the external origin {origin}")
  refuseIf (seg.startExtent ≠ 0)
    (.corrupt s!"{name}: a thin segment that does not start the volume")
  match seg.thinPool, seg.deviceId with
  | some poolName, some dev => do
      let (tdata, tmeta) ← mapper.poolVolumes name poolName
      let (metadata, _) ← sub tmeta
      let (data, _) ← sub tdata
      let sb ← thinSuperblock (read metadata)
      let found ← deviceRoot (read metadata) sb dev
      let root ← orRefuse found
        (.corrupt s!"{name}: thin device {dev} is not in {poolName}'s metadata")
      .ok (.thin { block := sb.dataBlockSize, metadata, data, root })
  | _, _ => .error (.corrupt s!"{name}: a thin segment without thin_pool and device_id")

/-- The segment types read through a dm-raid superblock. -/
def isRaidKind (kind : String) : Bool :=
  kind = "raid1" || kind = "raid10" || kind = "raid4" || kind.startsWith "raid5" ||
    kind.startsWith "raid6"

def mapSegment (mapper : Mapper) (name : String) (seg : Segment) :
    Except LvmError (RunMap V) :=
  if seg.kind = "striped" then mapper.striped name seg
  else if seg.kind = "thin" then thin sub read mapper name seg
  else if seg.kind = "thin-pool" then
    .error (.unsupported s!"{name} is a thin pool; the thin volumes in it are what is read")
  else if seg.kind = "mirror" then mirror sub seg
  else if isRaidKind seg.kind then raid sub read name seg
  else .error (.unsupported s!"segment type {seg.kind.quote} in {name}")

/-- The runs of the segments from extent `next` on, and the extent after the last. -/
def mapSegments (mapper : Mapper) (name : String) :
    List Segment → Nat → Except LvmError (List (Run V) × Nat)
  | [], next => .ok ([], next)
  | seg :: rest, next => do
      let ext := mapper.vg.extentSize
      refuseIf (seg.startExtent ≠ next) (.corrupt s!"{name}: segments leave a gap at extent {next}")
      refuseIf (2 ^ 64 ≤ seg.extentCount * ext) (.corrupt "segment size overflows")
      let map ← mapSegment sub read mapper name seg
      let (runs, last) ← mapSegments mapper name rest ((next + seg.extentCount) % 2 ^ 64)
      .ok ({ start := next * ext % 2 ^ 64, len := seg.extentCount * ext, map } :: runs, last)

end Sub

/-- A volume's runs and its size in bytes, with `levels` volumes to go: the volume itself, its
images, and theirs. -/
def map (mapper : Mapper) : (levels : Nat) → String → Except LvmError (Volume levels × Nat)
  | 0, name =>
      .error (.unsupported s!"{name}: sub-volumes nested deeper than an image of an image")
  | levels + 1, name => do
      let info ← mapper.lv name
      let (runs, next) ← mapSegments (mapper.map levels) (readVolume mapper.devices levels) mapper
        name info.segments 0
      .ok (runs, next * mapper.vg.extentSize % 2 ^ 64)

end Mapper

/-! ## Logical volumes -/

/-- A logical volume, read through its physical volumes. -/
structure LogicalVolume where
  devices : List BlockRead
  runs : Volume 3
  size : Nat
  info : LogicalVolumeInfo

/-- The device of each label's UUID, the last one first. -/
def readUuids (devices : List BlockRead) : Except LvmError (List (String × Nat)) :=
  devices.zipIdx.foldlM (fun known dev => do
    let label ← requireLabel dev.1 dev.2
    .ok ((label.uuid, dev.2) :: known)) []

/-- The newest metadata among the devices, and the device of each physical volume. -/
def Mapper.ofDevices (devices : List BlockRead) : Except LvmError Mapper := do
  let vg ← readVolumeGroup devices
  let uuidToDev ← readUuids devices
  .ok { vg, uuidToDev, devices }

namespace LogicalVolume

/-- Open a logical volume of the volume group on the devices, given in any order. -/
def openVolume (devices : List BlockRead) (name : String) : Except LvmError LogicalVolume := do
  let mapper ← Mapper.ofDevices devices
  let info ← mapper.lv name
  let (runs, size) ← mapper.map 3 name
  .ok { devices, runs, size, info }

def readAt (volume : LogicalVolume) (offset len : Nat) : Except BlockError (List UInt8) :=
  if volume.size < offset + len then .error (.outOfBounds offset len volume.size)
  else readVolume volume.devices 3 volume.runs offset len

end LogicalVolume

end DiskPartitions
