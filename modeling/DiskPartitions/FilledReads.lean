import DiskPartitions.ImageReads
import DiskPartitions.PlacedLayouts
import DiskPartitions.ThinVolumes
import DiskPartitions.WithheldVolumes

/-!
# Reads that fill their buffer

Arrays and volumes read piece by piece.  A piece is never empty and never longer than what is
left, so a read that succeeds fills its whole buffer, and an array or a volume is a device that
others can be made of.
-/

namespace DiskPartitions

open Slices BufferedReads Refusals

/-! ## Rows -/

section Rows

variable {member : ReadMember}

/-- A member that is there fills the buffer. -/
def Fills (member : ReadMember) : Prop :=
  ∀ slot off len bytes, member slot off len = .ok (some bytes) → bytes.length = len

variable (fills : Fills member)

theorem length_xorInto {buf other : List UInt8} {len : Nat} (first : buf.length = len)
    (second : other.length = len) : (xorInto buf other).length = len := by
  rw [xorInto, List.length_zipWith, first, second, Nat.min_self]

include fills

theorem length_xorRow {dd : Nat} {qd : Option Nat} {off len : Nat} {slots : List Nat}
    {buf bytes : List UInt8} (filled : buf.length = len)
    (read : xorRow member dd qd off len slots buf = .ok bytes) : bytes.length = len := by
  induction slots generalizing buf with
  | nil =>
      cases read
      exact filled
  | cons slot slots ih =>
      rw [xorRow] at read
      split at read
      next => exact ih filled read
      next =>
        obtain ⟨found, answered, read⟩ := bind_eq_ok.mp read
        cases found with
        | none => cases read
        | some tmp => exact ih (length_xorInto filled (fills _ _ _ _ answered)) read

/-- Taking out data chunks leaves the syndromes as long as they are. -/
theorem length_take {layout n stripe off len : Nat} {indices : List Nat} {row last : Syndromes}
    (long : row.p.length = len ∧ row.q.length = len)
    (taken : indices.foldlM (Syndromes.take member layout n stripe off len) row = .ok last) :
    last.p.length = len ∧ last.q.length = len := by
  induction indices generalizing row with
  | nil =>
      cases taken
      exact long
  | cons i indices ih =>
      rw [List.foldlM_cons] at taken
      obtain ⟨next, step, taken⟩ := bind_eq_ok.mp taken
      refine ih ?_ taken
      unfold Syndromes.take at step
      obtain ⟨found, answered, step⟩ := bind_eq_ok.mp step
      cases found with
      | none =>
          cases step
          exact long
      | some d =>
          cases step
          have filled := fills _ _ _ _ answered
          exact ⟨length_xorInto long.1 filled,
            length_xorInto long.2 ((List.length_map _).trans filled)⟩

omit fills in
theorem length_solveRow {layout n stripe x len : Nat} {haveP haveQ : Bool} {row : Syndromes}
    {bytes : List UInt8} (long : row.p.length = len ∧ row.q.length = len)
    (solved : solveRow layout n stripe x haveP haveQ row = .ok bytes) : bytes.length = len := by
  unfold solveRow at solved
  dsimp only at solved
  split at solved
  · split at solved
    · cases solved
      exact long.1
    · split at solved
      · cases solved
        exact (List.length_map _).trans long.2
      · cases solved
  next a b _ =>
    split at solved
    · generalize (if a = x then b else a) = y at solved
      split at solved
      · cases solved
      · cases solved
        exact length_xorInto ((List.length_map _).trans long.1) ((List.length_map _).trans long.2)
    · cases solved
  next => cases solved

theorem length_rebuildRaid6 {s : Striping} {stripe x off len : Nat} {bytes : List UInt8}
    (read : rebuildRaid6 s member stripe x off len = .ok bytes) : bytes.length = len := by
  unfold rebuildRaid6 at read
  obtain ⟨p, readP, read⟩ := bind_eq_ok.mp read
  obtain ⟨q, readQ, read⟩ := bind_eq_ok.mp read
  obtain ⟨row, taken, read⟩ := bind_eq_ok.mp read
  have filled : ∀ {slot : Nat} {found : Option (List UInt8)}, member slot off len = .ok found →
      (found.getD (List.replicate len 0)).length = len := by
    intro slot found answered
    cases found with
    | none => exact List.length_replicate
    | some bytes => exact fills _ _ _ _ answered
  exact length_solveRow (length_take fills ⟨filled readP, filled readQ⟩ taken) read

theorem length_readCopies {chunk within len : Nat} {gone : BlockError} {places : List (Nat × Nat)}
    {last : Option BlockError} {bytes : List UInt8}
    (read : readCopies member chunk within len gone places last = .ok bytes) :
    bytes.length = len := by
  induction places generalizing last with
  | nil => cases read
  | cons place places ih =>
      rw [readCopies] at read
      split at read
      next answered =>
        cases read
        exact fills _ _ _ _ answered
      next => exact ih read
      next => exact ih read

/-- What is read of a chunk fills the buffer, be it read, rebuilt or found on a copy. -/
theorem length_readChunk {s : Striping} {k within len : Nat} {bytes : List UInt8}
    (read : readChunk s member k within len = .ok bytes) : bytes.length = len := by
  unfold readChunk at read
  dsimp only at read
  split at read
  next => exact length_readCopies fills read
  next =>
    obtain ⟨found, answered, read⟩ := bind_eq_ok.mp read
    cases found with
    | some found =>
        cases read
        exact fills _ _ _ _ answered
    | none =>
        dsimp only at read
        split at read
        next => exact length_rebuildRaid6 fills read
        next => exact length_xorRow fills List.length_replicate read

end Rows

/-! ## Arrays -/

namespace MdArray

theorem length_readPresent {array : MdArray} {slot off len : Nat} {bytes : List UInt8}
    (read : array.readPresent slot off len = .ok bytes) : bytes.length = len := by
  unfold readPresent at read
  obtain ⟨found, answered, read⟩ := bind_eq_ok.mp read
  cases found with
  | none =>
      cases read
      exact List.length_replicate
  | some found =>
      cases read
      exact length_readMember answered

/-- A piece of a read over zones is not empty and not longer than what is left. -/
theorem length_readZoned {array : MdArray} (chunked : array.level ≠ levelLinear → 0 < array.chunk)
    {pos left : Nat} (some_left : 0 < left) {bytes : List UInt8}
    (read : array.readZoned pos left = .ok bytes) : 0 < bytes.length ∧ bytes.length ≤ left := by
  unfold readZoned at read
  split at read
  next => cases read
  next z found =>
    have held := List.find?_some found
    rw [decide_eq_true_eq] at held
    dsimp only at read
    split at read
    next =>
      rw [length_readPresent read]
      omega
    next striped =>
      have inner := Nat.mod_lt (pos - z.start) (chunked striped)
      rw [length_readPresent read]
      omega

/-- A piece of a read over chunks is not empty and not longer than what is left. -/
theorem length_readPiece {array : MdArray} (chunked : 0 < array.chunk) {pos left : Nat}
    (some_left : 0 < left) {bytes : List UInt8} (read : array.readPiece pos left = .ok bytes) :
    0 < bytes.length ∧ bytes.length ≤ left := by
  have within := Nat.mod_lt pos chunked
  have filled := length_readChunk (fun _ _ _ _ => length_readMember) read
  omega

/-- The levels that count chunks have some. -/
theorem chunk_pos_of_assembled {array : MdArray} (assembled : Assembled array)
    (mirror : array.level ≠ levelRaid1) (linear : array.level ≠ levelLinear) : 0 < array.chunk := by
  have shaped := assembled.geometry
  have positive : ∀ {α : Type} {next : Unit → Except MdError α} {made : α},
      (needsChunk array.superblock.chunkBytes >>= next) = .ok made → 0 < array.chunk := by
    intro α next made done
    obtain ⟨chunked, -⟩ := refuseIf_bind_eq_ok.mp done
    rw [assembled.chunk]
    exact Nat.pos_of_ne_zero fun none => chunked (.inl none)
  rw [assembled.level] at mirror linear
  unfold levelGeometry at shaped
  rw [if_neg linear, if_neg mirror] at shaped
  split at shaped
  next =>
    unfold raid0Geometry at shaped
    obtain ⟨_, -, shaped⟩ := bind_eq_ok.mp shaped
    exact positive shaped
  next =>
    split at shaped
    next => exact positive shaped
    next =>
      split at shaped
      next => exact positive shaped
      next => cases shaped

theorem length_readAt {array : MdArray} (assembled : Assembled array) {offset len : Nat}
    {bytes : List UInt8} (read : array.readAt offset len = .ok bytes) : bytes.length = len := by
  unfold readAt at read
  split at read
  next => cases read
  next =>
    split at read
    next => exact length_readLegs read
    next mirror =>
      split at read
      next =>
        refine length_readPieces ?_ (Nat.le_refl len) read
        intro position left items some_left answered
        exact length_readZoned (chunk_pos_of_assembled assembled mirror) some_left answered
      next zoned =>
        refine length_readPieces ?_ (Nat.le_refl len) read
        intro position left items some_left answered
        exact length_readPiece
          (chunk_pos_of_assembled assembled mirror fun linear => zoned (.inr linear)) some_left answered

end MdArray

/-! ## Volumes -/

/-- The pieces of a run have a size, and its sub-volumes are as they should be. -/
def RunMap.Stepped {V : Type} (stepped : V → Prop) : RunMap V → Prop
  | .striped stripeSize stripes => stripes.length ≠ 1 → 0 < stripeSize
  | .raid map =>
      (map.level ≠ levelRaid1 → 0 < map.chunk) ∧ ∀ image, some image ∈ map.images → stepped image
  | .thin map => 0 < map.block ∧ stepped map.metadata ∧ stepped map.data

def RunsStepped {V : Type} (stepped : V → Prop) (runs : List (Run V)) : Prop :=
  ∀ run ∈ runs, run.map.Stepped stepped

def VolumeStepped : (levels : Nat) → Volume levels → Prop
  | 0, volume => nomatch volume
  | levels + 1, runs => RunsStepped (VolumeStepped levels) runs

section Reads

variable {V : Type} {read : V → Nat → Nat → Except BlockError (List UInt8)} {stepped : V → Prop}
  (fills : ∀ volume, stepped volume → ∀ off len bytes, read volume off len = .ok bytes →
    bytes.length = len)

theorem length_readDevice {devices : List BlockRead} {dev off len : Nat} {bytes : List UInt8}
    (answered : readDevice devices dev off len = .ok bytes) : bytes.length = len := by
  unfold readDevice at answered
  split at answered
  next device _ => exact device.length_readAt answered
  next => cases answered

include fills

theorem length_readImages {place want : Nat} {images : List (Option V)} {last : Option BlockError}
    (present : ∀ image, some image ∈ images → stepped image) {bytes : List UInt8}
    (answered : readImages read place want images last = .ok bytes) : bytes.length = want := by
  obtain ⟨image, listed, own⟩ := exists_of_readImages answered
  exact fills image (present image listed) _ _ _ own

theorem fills_images {map : RaidMap V} (present : ∀ image, some image ∈ map.images → stepped image) :
    Fills (map.readMember read) := by
  intro slot off len bytes answered
  unfold RaidMap.readMember at answered
  split at answered
  next image found =>
    obtain ⟨own, gave, answered⟩ := bind_eq_ok.mp answered
    cases answered
    refine fills image (present image ?_) _ _ _ gave
    rw [List.getD_eq_getElem?_getD] at found
    cases entry : map.images[slot]? with
    | none =>
        rw [entry] at found
        cases found
    | some held =>
        rw [entry] at found
        exact found ▸ List.mem_of_getElem? entry
  next => cases answered

/-- A piece of a run is not empty and not longer than what is wanted of it. -/
theorem length_readMap {devices : List BlockRead} {map : RunMap V} (own : map.Stepped stepped)
    {within want : Nat} (some_want : 0 < want) {bytes : List UInt8}
    (answered : readMap read devices map within want = .ok bytes) :
    0 < bytes.length ∧ bytes.length ≤ want := by
  cases map with
  | striped stripeSize stripes =>
      change readStriped devices stripeSize stripes within want = .ok bytes at answered
      unfold readStriped at answered
      split at answered
      next =>
        rw [length_readDevice answered]
        omega
      next several =>
        have inner := Nat.mod_lt within (own several)
        have filled := length_readDevice answered
        omega
  | raid map =>
      change map.readPiece read within want = .ok bytes at answered
      unfold RaidMap.readPiece at answered
      split at answered
      next =>
        rw [length_readImages fills own.2 answered]
        omega
      next other =>
        have inner := Nat.mod_lt within (own.1 other)
        have filled := length_readChunk (fills_images fills own.2) answered
        omega
  | thin map =>
      change readThin read map within want = .ok bytes at answered
      unfold readThin at answered
      have inner := Nat.mod_lt within own.1
      obtain ⟨found, -, answered⟩ := bind_eq_ok.mp answered
      cases found with
      | none =>
          cases answered
          rw [List.length_replicate]
          omega
      | some db =>
          obtain ⟨-, answered⟩ := refuseIf_bind_eq_ok.mp answered
          have filled := fills map.data own.2.2 _ _ _ answered
          omega

end Reads

/-- A read of a volume that succeeds fills its buffer. -/
theorem length_readVolume {devices : List BlockRead} {levels : Nat} {volume : Volume levels}
    (stepped : VolumeStepped levels volume) {off len : Nat} {bytes : List UInt8}
    (answered : readVolume devices levels volume off len = .ok bytes) : bytes.length = len := by
  induction levels generalizing off len bytes with
  | zero => exact nomatch volume
  | succ levels ih =>
      refine length_readPieces ?_ (Nat.le_refl len) answered
      intro position left items some_left piece
      unfold readRunPiece at piece
      dsimp only at piece
      split at piece
      next => cases piece
      next run found =>
        have held := List.find?_some found
        rw [decide_eq_true_eq] at held
        have filled := length_readMap (fun _ own _ _ _ => ih own)
          (stepped run (List.mem_of_find?_eq_some found)) (by omega) piece
        omega

/-! ## Resolved volumes -/

theorem thinSuperblock_block_pos {read : ReadBlock} {sb : ThinSuperblock}
    (found : thinSuperblock read = .ok sb) : 0 < sb.dataBlockSize := by
  unfold thinSuperblock at found
  obtain ⟨b, -, found⟩ := bind_eq_ok.mp found
  obtain ⟨-, found⟩ := refuseIf_bind_eq_ok.mp found
  obtain ⟨-, found⟩ := refuseIf_bind_eq_ok.mp found
  obtain ⟨-, found⟩ := refuseIf_bind_eq_ok.mp found
  obtain ⟨-, found⟩ := refuseIf_bind_eq_ok.mp found
  obtain ⟨some_block, found⟩ := refuseIf_bind_eq_ok.mp found
  cases found
  exact Nat.pos_of_ne_zero some_block

namespace Mapper

section Segments

variable {V : Type} {sub : String → Except LvmError (V × Nat)}
  {read : V → Nat → Nat → Except BlockError (List UInt8)} {mapper : Mapper} {name : String}
  {seg : Segment} {stepped : V → Prop}
  (subs : ∀ part volume size, sub part = .ok (volume, size) → stepped volume)

include subs

theorem mapSegment_stepped {map : RunMap V}
    (resolved : mapSegment sub read mapper name seg = .ok map) : map.Stepped stepped := by
  unfold mapSegment at resolved
  split at resolved
  next =>
    obtain ⟨stripes, rfl, some_stripe, -, starts, -⟩ := striped_eq_ok resolved
    intro several
    have same := starts.length_eq
    exact seg.sized (by omega)
  next =>
    split at resolved
    next =>
      obtain ⟨-, dev, data, size, metadata, sb, root, pool, superblock, -, rfl⟩ := thin_eq_ok resolved
      obtain ⟨_, tdata, tmeta, -, -, ownData, metadataSize, ownMetadata⟩ := pool.pool
      exact ⟨thinSuperblock_block_pos superblock, subs tmeta _ _ ownMetadata, subs tdata _ _ ownData⟩
    next =>
      split at resolved
      next => cases resolved
      next =>
        split at resolved
        next =>
          unfold mirror at resolved
          obtain ⟨⟨images, gone⟩, imaged, resolved⟩ := bind_eq_ok.mp resolved
          obtain ⟨-, -, resolved⟩ := bind_eq_ok.mp resolved
          cases resolved
          exact ⟨fun other => absurd rfl other, images_placed subs imaged⟩
        next =>
          split at resolved
          next =>
            obtain ⟨images, sb, level, raid10, checks, rfl⟩ := raid_eq_ok.mp resolved
            obtain ⟨gone, imaged⟩ := checks.imaged
            obtain ⟨parity, -, sized⟩ := checks.sized
            exact ⟨fun other => Nat.pos_of_ne_zero (sized other).1, images_placed subs imaged⟩
          next => cases resolved

end Segments

/-- Every part of a volume that is resolved has pieces of some size. -/
theorem map_stepped {mapper : Mapper} {levels : Nat} {name : String} {volume : Volume levels}
    {size : Nat} (mapped : mapper.map levels name = .ok (volume, size)) :
    VolumeStepped levels volume := by
  induction levels generalizing name size with
  | zero => exact nomatch volume
  | succ levels ih =>
      obtain ⟨info, last, named, resolved, -⟩ := map_eq_ok mapped
      intro run listed
      obtain ⟨seg, there, resolves⟩ := exists_of_mem_right (resolves_of_mapSegments resolved) listed
      exact mapSegment_stepped (fun part volume size => ih) resolves.map

end Mapper

theorem LogicalVolume.length_readAt {devices : List BlockRead} {name : String}
    {volume : LogicalVolume} (opened : LogicalVolume.openVolume devices name = .ok volume)
    {offset len : Nat} {bytes : List UInt8} (answered : volume.readAt offset len = .ok bytes) :
    bytes.length = len := by
  obtain ⟨-, mapper, -, -, -, mapped⟩ := LogicalVolume.openVolume_eq_ok opened
  unfold readAt at answered
  split at answered
  next => cases answered
  next => exact length_readVolume (Mapper.map_stepped mapped) answered

/-! ## Arrays and volumes as devices -/

/-- The size a linear array has come to fits a word. -/
theorem foldlM_appendLinear_lt {chunk : Nat} {members : List (Nat × Member)}
    {zones finish : List Zone × Nat} (small : zones.2 < 2 ^ 64)
    (appended : members.foldlM (appendLinear chunk) zones = .ok finish) : finish.2 < 2 ^ 64 := by
  induction members generalizing zones with
  | nil =>
      cases appended
      exact small
  | cons member members ih =>
      rw [List.foldlM_cons] at appended
      obtain ⟨next, step, appended⟩ := bind_eq_ok.mp appended
      refine ih ?_ appended
      obtain ⟨fits, step⟩ := refuseIf_bind_eq_ok.mp step
      cases step
      exact Nat.lt_of_not_le fits

/-- The size of an assembled array fits a word. -/
theorem MdArray.size_lt {array : MdArray} (assembled : Assembled array) : array.size < 2 ^ 64 := by
  have shaped := assembled.geometry
  unfold levelGeometry at shaped
  split at shaped
  next =>
    obtain ⟨_, -, shaped⟩ := bind_eq_ok.mp shaped
    obtain ⟨⟨zones, size⟩, appended, shaped⟩ := bind_eq_ok.mp shaped
    simp only [Except.ok.injEq, Geometry.mk.injEq] at shaped
    rw [← shaped.1]
    have small := foldlM_appendLinear_lt (by decide) appended
    exact small
  next =>
    split at shaped
    next mirror =>
      obtain ⟨some_member, shaped⟩ := refuseIf_bind_eq_ok.mp shaped
      have counted : 0 < array.slots.countP Option.isSome := Nat.le_of_not_lt some_member
      obtain ⟨entry, listed, present⟩ := List.countP_pos_iff.mp counted
      obtain ⟨m, rfl⟩ := Option.isSome_iff_exists.mp present
      have span := assembled.spans m (List.mem_filterMap.mpr ⟨_, listed, rfl⟩)
      rw [memberSpan, if_pos mirror] at span
      have size := m.dev.sizeBytes.toNat_lt
      omega
    next =>
      split at shaped
      next =>
        unfold raid0Geometry at shaped
        obtain ⟨_, -, shaped⟩ := bind_eq_ok.mp shaped
        obtain ⟨_, -, shaped⟩ := bind_eq_ok.mp shaped
        obtain ⟨-, shaped⟩ := refuseIf_bind_eq_ok.mp shaped
        simp only [Except.ok.injEq, Geometry.mk.injEq] at shaped
        rw [← shaped.1]
        exact Nat.mod_lt _ (by decide)
      next =>
        split at shaped
        next =>
          unfold raid10Geometry at shaped
          obtain ⟨_, -, shaped⟩ := bind_eq_ok.mp shaped
          obtain ⟨-, shaped⟩ := refuseIf_bind_eq_ok.mp shaped
          obtain ⟨-, shaped⟩ := refuseIf_bind_eq_ok.mp shaped
          obtain ⟨_, -, shaped⟩ := bind_eq_ok.mp shaped
          obtain ⟨fits, shaped⟩ := refuseIf_bind_eq_ok.mp shaped
          simp only [Except.ok.injEq, Geometry.mk.injEq] at shaped
          rw [← shaped.1]
          exact Nat.lt_of_not_le fits
        next =>
          split at shaped
          next =>
            unfold parityGeometry at shaped
            obtain ⟨_, -, shaped⟩ := bind_eq_ok.mp shaped
            obtain ⟨-, shaped⟩ := refuseIf_bind_eq_ok.mp shaped
            obtain ⟨-, shaped⟩ := refuseIf_bind_eq_ok.mp shaped
            obtain ⟨-, shaped⟩ := refuseIf_bind_eq_ok.mp shaped
            obtain ⟨_, -, shaped⟩ := bind_eq_ok.mp shaped
            obtain ⟨fits, shaped⟩ := refuseIf_bind_eq_ok.mp shaped
            simp only [Except.ok.injEq, Geometry.mk.injEq] at shaped
            rw [← shaped.1]
            exact Nat.lt_of_not_le fits
          next => cases shaped

/-- An assembled array as a device. -/
def MdArray.toBlockRead (array : MdArray) (assembled : Assembled array) : BlockRead where
  sizeBytes := UInt64.ofNat array.size
  readAt := array.readAt
  length_readAt := array.length_readAt assembled

theorem MdArray.toNat_sizeBytes {array : MdArray} (assembled : Assembled array) :
    (array.toBlockRead assembled).sizeBytes.toNat = array.size :=
  UInt64.toNat_ofNat_of_lt' (size_lt assembled)

/-- Assemble an array and hand it out as a device. -/
def assembleDevice (devices : List BlockRead) : Except MdError BlockRead :=
  match done : assemble devices with
  | .ok array => .ok (array.toBlockRead (assembled_of_assemble done))
  | .error error => .error error

theorem assembleDevice_eq_ok {devices : List BlockRead} {dev : BlockRead}
    (opened : assembleDevice devices = .ok dev) :
    ∃ array, ∃ done : assemble devices = .ok array,
      dev = array.toBlockRead (assembled_of_assemble done) := by
  unfold assembleDevice at opened
  split at opened
  next array done =>
    cases opened
    exact ⟨array, done, rfl⟩
  next => cases opened

theorem assembleDevice_of_assemble {devices : List BlockRead} {array : MdArray}
    (done : assemble devices = .ok array) :
    assembleDevice devices = .ok (array.toBlockRead (assembled_of_assemble done)) := by
  unfold assembleDevice
  split
  next other again =>
    obtain rfl := Except.ok.inj (again.symm.trans done)
    rfl
  next failed =>
    rw [done] at failed
    cases failed

/-- A volume that opened as a device. -/
def LogicalVolume.toBlockRead (volume : LogicalVolume) {devices : List BlockRead} {name : String}
    (opened : LogicalVolume.openVolume devices name = .ok volume) : BlockRead where
  sizeBytes := UInt64.ofNat volume.size
  readAt := volume.readAt
  length_readAt := LogicalVolume.length_readAt opened

/-- Open a volume and hand it out as a device. -/
def openDevice (devices : List BlockRead) (name : String) : Except LvmError BlockRead :=
  match opened : LogicalVolume.openVolume devices name with
  | .ok volume => .ok (volume.toBlockRead opened)
  | .error error => .error error

theorem openDevice_eq_ok {devices : List BlockRead} {name : String} {dev : BlockRead}
    (made : openDevice devices name = .ok dev) :
    ∃ volume, ∃ opened : LogicalVolume.openVolume devices name = .ok volume,
      dev = volume.toBlockRead opened := by
  unfold openDevice at made
  split at made
  next volume opened =>
    cases made
    exact ⟨volume, opened, rfl⟩
  next => cases made

theorem openDevice_of_open {devices : List BlockRead} {name : String} {volume : LogicalVolume}
    (opened : LogicalVolume.openVolume devices name = .ok volume) :
    openDevice devices name = .ok (volume.toBlockRead opened) := by
  unfold openDevice
  split
  next other again =>
    obtain rfl := Except.ok.inj (again.symm.trans opened)
    rfl
  next failed =>
    rw [opened] at failed
    cases failed

end DiskPartitions
