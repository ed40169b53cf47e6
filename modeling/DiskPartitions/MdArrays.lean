import DiskPartitions.BufferedReads
import DiskPartitions.MdReads
import Mathlib.Data.List.Destutter

/-!
# Assembling and reading an `md` array

Members are placed in the slots their superblocks claim, the newest superblock
decides the level, layout and sizes, and the assembled array reads as one
device.  Sums and products the source does not check wrap at the word's range.
-/

namespace DiskPartitions

open Refusals BufferedReads

/-- A member in its slot. -/
structure Member where
  dev : BlockRead
  dataOffset : Nat
  dataSize : Nat

/-- A run of a RAID0 array striped over the members that reach that far. -/
structure Zone where
  start : Nat
  len : Nat
  devStart : Nat
  slots : List Nat
  deriving DecidableEq, Repr

/-- An assembled array, read through its members. -/
structure MdArray where
  slots : List (Option Member)
  level : Int
  layout : Nat
  chunk : Nat
  size : Nat
  zones : List Zone
  raid10 : Option Raid10
  superblock : MdSuperblock

/-! ## Assembly -/

def raid0LayoutOriginal : Nat := 1
def raid0LayoutAlternate : Nat := 2

/-- The next zone, over the slots that reach `finish`. -/
def nextZone (sizes : List Nat) (zones : List Zone × Nat × Nat) (finish : Nat) :
    List Zone × Nat × Nat :=
  let (built, start, prev) := zones
  let slots := (List.range sizes.length).filter fun slot => finish ≤ sizes.getD slot 0
  let len := (finish - prev) * slots.length % 2 ^ 64
  (built ++ [{ start, len, devStart := prev, slots }], (start + len) % 2 ^ 64, finish)

/-- The zones of a RAID0 over members of the given usable sizes. -/
def raid0Zones (sizes : List Nat) : List Zone :=
  let ends := ((sizes.filter fun size => 0 < size).mergeSort).destutter (· ≠ ·)
  (ends.foldl (nextZone sizes) ([], 0, 0)).1

/-- The next member of a linear array, after the ones before it. -/
def appendLinear (chunk : Nat) (zones : List Zone × Nat) (member : Nat × Member) :
    Except MdError (List Zone × Nat) := do
  let (built, start) := zones
  let (slot, m) := member
  let len := if chunk = 0 then m.dataSize else m.dataSize / chunk * chunk
  refuseIf (2 ^ 64 ≤ start + len) (.corrupt 0 "array size overflows")
  .ok (built ++ [{ start, len, devStart := 0, slots := [slot] }], start + len)

/-- A number as `{:#x}` prints it. -/
def hex (value : Nat) : String := "0x" ++ String.ofList (Nat.toDigits 16 value)

/-- The superblock of every device, by its place in the list. -/
def readMembers (devices : List BlockRead) :
    Except MdError (List (Nat × BlockRead × MdSuperblock)) :=
  devices.zipIdx.mapM fun (dev, member) => do
    let found ← readSuperblockOf dev member
    let sb ← orRefuse found (.noSuperblock member)
    .ok (member, dev, sb)

/-- Put a member in the slot it claims, unless it is stale, partly recovered or
not an active member of the array. -/
def placeMember (n newest : Nat) (slots : List (Option Member))
    (found : Nat × BlockRead × MdSuperblock) : Except MdError (List (Option Member)) :=
  let (_, dev, sb) := found
  match sb.role with
  | .active slot =>
      if sb.events < newest ∨ sb.featureMap &&& featureRecoveryOffset ≠ 0 then .ok slots
      else if n ≤ slot then .ok slots
      else do
        refuseIf ((slots.getD slot none).isSome) (.duplicateRole slot)
        .ok (slots.set slot (some { dev, dataOffset := sb.dataOffset, dataSize := sb.dataSize }))
  | _ => .ok slots

/-- How many slots hold a usable member. -/
def presentCount (slots : List (Option Member)) : Nat :=
  slots.countP Option.isSome

/-- The level needs `needed` members. -/
def needMembers (level : Int) (slots : List (Option Member)) (needed : Nat) :
    Except MdError Unit :=
  refuseIf (presentCount slots < needed) (.tooFewMembers level (presentCount slots) needed)

def needsChunk (chunk : Nat) : Except MdError Unit :=
  refuseIf (chunk = 0 ∨ chunk % mdSector ≠ 0) (.corrupt 0 s!"chunk size {chunk}")

/-- What the level makes of the members: the size, and where the data is. -/
structure Geometry where
  size : Nat
  zones : List Zone
  raid10 : Option Raid10

def linearGeometry (lead : MdSuperblock) (slots : List (Option Member)) :
    Except MdError Geometry := do
  needMembers lead.level slots lead.raidDisks
  -- every slot is present, so this keeps each slot's number
  let members := slots.zipIdx.filterMap fun (m, slot) => m.map fun m => (slot, m)
  let (zones, size) ← members.foldlM (appendLinear lead.chunkBytes) ([], 0)
  .ok { size, zones, raid10 := none }

def raid1Geometry (lead : MdSuperblock) (slots : List (Option Member)) :
    Except MdError Geometry := do
  needMembers lead.level slots 1
  .ok { size := lead.componentSize, zones := [], raid10 := none }

def raid0Geometry (lead : MdSuperblock) (slots : List (Option Member)) :
    Except MdError Geometry := do
  needMembers lead.level slots lead.raidDisks
  needsChunk lead.chunkBytes
  let sizes := (slots.filterMap id).map fun m => m.dataSize / lead.chunkBytes * lead.chunkBytes
  let zones := raid0Zones sizes
  refuseIf (1 < zones.length ∧ lead.layout ≠ raid0LayoutAlternate ∧
    lead.layout ≠ raid0LayoutOriginal) (.unsupported s!"multi-zone RAID0 with layout {lead.layout}")
  .ok { size := (zones.map Zone.len).sum % 2 ^ 64, zones, raid10 := none }

/-- Refuse a RAID10 when every copy of some chunk is on a missing member. -/
def requireCopies (geo : Raid10) (d : Nat) (slots : List (Option Member)) :
    List Nat → Except MdError Unit
  | [] => .ok ()
  | c :: rest => do
      let copies := geo.copies d c
      refuseIf (∀ place ∈ copies, (slots.getD place.1 none).isNone)
        (.noCopyLeft (copies.map Prod.fst))
      requireCopies geo d slots rest

def raid10Geometry (lead : MdSuperblock) (slots : List (Option Member)) :
    Except MdError Geometry := do
  needsChunk lead.chunkBytes
  -- bits 0 to 15 hold the copies and bit 16 the offset flag
  refuseIf (2 ^ 17 ≤ lead.layout) (.unsupported s!"RAID10 layout {hex lead.layout}")
  let near := lead.layout % 256
  let far := lead.layout / 256 % 256
  let d := lead.raidDisks
  refuseIf (near = 0 ∨ far = 0 ∨ d < near * far)
    (.corrupt 0 s!"RAID10 layout {hex lead.layout} over {lead.raidDisks} members")
  let devChunks := lead.componentSize / lead.chunkBytes
  let geo : Raid10 :=
    { near, far, offset := lead.layout &&& raid10Offset != 0, stride := devChunks / far }
  -- the copies of chunk c fall on the same slots as those of chunk c + d
  requireCopies geo d slots (List.range d)
  let chunks := devChunks / far * d % 2 ^ 64 / near
  refuseIf (2 ^ 64 ≤ chunks * lead.chunkBytes) (.corrupt 0 "array size overflows")
  .ok { size := chunks * lead.chunkBytes, zones := [], raid10 := some geo }

def parityGeometry (lead : MdSuperblock) (slots : List (Option Member)) :
    Except MdError Geometry := do
  needsChunk lead.chunkBytes
  let n := lead.raidDisks
  let parity := if lead.level = levelRaid6 then 2 else 1
  refuseIf (n ≤ parity) (.corrupt 0 s!"RAID{lead.level} with {n} members")
  refuseIf (lead.level = levelRaid6 ∧ ¬ raid6LayoutKnown lead.layout)
    (.unsupported s!"RAID6 layout {lead.layout}")
  refuseIf (lead.level = levelRaid5 ∧ layoutParityLast < lead.layout)
    (.unsupported s!"RAID5 layout {lead.layout}")
  needMembers lead.level slots (n - parity)
  let size := lead.componentSize / lead.chunkBytes * lead.chunkBytes * (n - parity)
  refuseIf (2 ^ 64 ≤ size) (.corrupt 0 "array size overflows")
  .ok { size, zones := [], raid10 := none }

def levelGeometry (lead : MdSuperblock) (slots : List (Option Member)) :
    Except MdError Geometry :=
  if lead.level = levelLinear then linearGeometry lead slots
  else if lead.level = levelRaid1 then raid1Geometry lead slots
  else if lead.level = levelRaid0 then raid0Geometry lead slots
  else if lead.level = levelRaid10 then raid10Geometry lead slots
  else if lead.level = levelRaid4 ∨ lead.level = levelRaid5 ∨ lead.level = levelRaid6 then
    parityGeometry lead slots
  else .error (.unsupported s!"RAID level {lead.level}")

/-- How many bytes of a member the array reads. -/
def memberSpan (lead : MdSuperblock) (size : Nat) : Nat :=
  if lead.level = levelRaid1 then size
  else if lead.level = levelRaid0 ∨ lead.level = levelLinear then 0
  else lead.componentSize

/-- Assemble an array whose superblocks were read. -/
def assembleFound (found : List (Nat × BlockRead × MdSuperblock)) : Except MdError MdArray := do
  let uuid := (found.head?.map fun (_, _, sb) => sb.arrayUuid).getD []
  match found.find? fun (_, _, sb) => sb.arrayUuid ≠ uuid with
  | some (member, _, _) => .error (.mixedArrays member)
  | none =>
      let newest := (found.map fun (_, _, sb) => sb.events).foldl max 0
      -- `expect`: some member has the newest event count
      let (_, _, lead) ← orRefuse (found.find? fun (_, _, sb) => sb.events = newest) .empty
      refuseIf (lead.featureMap &&& featureReshapeActive ≠ 0)
        (.unsupported "the array is mid-reshape")
      let n := lead.raidDisks
      refuseIf (n = 0 ∨ v1MaxDev < n) (.corrupt 0 s!"raid_disks {n}")
      let slots ← found.foldlM (placeMember n newest) (List.replicate n none)
      let geometry ← levelGeometry lead slots
      refuseIf (∃ m ∈ slots.filterMap id,
          m.dev.sizeBytes.toNat < m.dataOffset + memberSpan lead geometry.size)
        (.corrupt 0 "a member is shorter than the array needs")
      .ok {
        slots
        level := lead.level
        layout := lead.layout
        chunk := lead.chunkBytes
        size := geometry.size
        zones := geometry.zones
        raid10 := geometry.raid10
        superblock := lead }

/-- Assemble an array from its member devices, in any order. -/
def assemble (devices : List BlockRead) : Except MdError MdArray := do
  refuseIf (devices = []) .empty
  let found ← readMembers devices
  assembleFound found

/-! ## Reads -/

namespace MdArray

def readMember (array : MdArray) : ReadMember := fun slot off len =>
  match array.slots.getD slot none with
  | some m => do
      let bytes ← m.dev.readAt (m.dataOffset + off) len
      .ok (some bytes)
  | none => .ok none

/-- The first leg that can be read; `last` is the failure met so far. -/
def readLegs (offset len : Nat) :
    List Member → Option BlockError → Except BlockError (List UInt8)
  | [], last => .error (last.getD (.custom "no RAID1 member present"))
  | m :: rest, _ =>
      match m.dev.readAt (m.dataOffset + offset) len with
      | .ok bytes => .ok bytes
      | .error error => readLegs offset len rest (some error)

def readRaid1 (array : MdArray) (offset len : Nat) : Except BlockError (List UInt8) :=
  readLegs offset len (array.slots.filterMap id) none

/-- A slot a zone names is present: nothing is read into the buffer otherwise. -/
def readPresent (array : MdArray) (slot off len : Nat) : Except BlockError (List UInt8) := do
  match ← array.readMember slot off len with
  | some bytes => .ok bytes
  | none => .ok (List.replicate len 0)

/-- Read RAID0 or linear bytes up to the end of the zone or, at RAID0, of the
chunk.  No zone is found only where the zones do not cover the array, where the
source panics. -/
def readZoned (array : MdArray) (pos left : Nat) : Except BlockError (List UInt8) :=
  match array.zones.find? fun z => z.start ≤ pos ∧ pos < z.start + z.len with
  | none => .error (.custom "zones cover the array")
  | some z =>
      let within := pos - z.start
      if array.level = levelLinear then
        array.readPresent (z.slots.getD 0 0) (z.devStart + within) (min (z.len - within) left)
      else
        let k := z.slots.length
        let c := within / array.chunk
        let inner := within % array.chunk
        let off := z.devStart + c / k * array.chunk + inner
        let pick := if array.layout = raid0LayoutOriginal then pos / array.chunk else c
        array.readPresent (z.slots.getD (pick % k) 0) off (min (array.chunk - inner) left)

def striping (array : MdArray) : Striping where
  level := array.level
  layout := array.layout
  chunk := array.chunk
  members := array.slots.length
  raid10 := array.raid10

/-- The part of a read that lies in the chunk at `pos`. -/
def readPiece (array : MdArray) (pos left : Nat) : Except BlockError (List UInt8) :=
  let within := pos % array.chunk
  readChunk array.striping array.readMember (pos / array.chunk) within
    (min (array.chunk - within) left)

def readAt (array : MdArray) (offset len : Nat) : Except BlockError (List UInt8) :=
  if array.size < offset + len then .error (.outOfBounds offset len array.size)
  else if array.level = levelRaid1 then array.readRaid1 offset len
  else if array.level = levelRaid0 ∨ array.level = levelLinear then
    readWhole array.readZoned offset len
  else readWhole array.readPiece offset len

end MdArray

end DiskPartitions
