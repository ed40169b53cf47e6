import DiskPartitions.StripedVolumes
import DiskPartitions.ThinTrees

/-!
# Thin volumes

A thin volume is one segment, whose blocks are found in the metadata of its pool.  Where that
holds a map from devices and blocks to data blocks, a read of the volume returns the bytes of
the data blocks the map gives, and zeros where it gives none.
-/

namespace DiskPartitions

open Refusals Slices BufferedReads Tilings

/-! ## Blocks -/

/-- Byte `p` of a thin device: where the map gives its block a data block, the byte at the same
place there, and otherwise zero. -/
def thinByte (map : Nat → Option (Nat × Nat)) (block : Nat) (content : Nat → UInt8) (p : Nat) :
    UInt8 :=
  match map (p / block) with
  | some mapping => content (mapping.1 * block + p % block)
  | none => 0

/-- A volume of `size` bytes reads as the given bytes wherever it is read. -/
def ReadsAs {V : Type} (read : V → Nat → Nat → Except BlockError (List UInt8)) (volume : V)
    (size : Nat) (content : Nat → UInt8) : Prop :=
  ∀ offset len, offset + len ≤ size →
    read volume offset len = .ok (buffer len fun j => content (offset + j))

section Blocks

variable {V : Type} {read : V → Nat → Nat → Except BlockError (List UInt8)} {thin : ThinMap V}
  {map : Nat → Option (Nat × Nat)} {size : Nat} {content : Nat → UInt8}

/-- A read of a thin volume up to the end of a block gives its bytes. -/
theorem readThin_content (some_block : 0 < thin.block)
    (blocks : HoldsBlocks (read thin.metadata) thin.root map)
    (timed : ∀ block mapping, map block = some mapping → mapping.2 < 2 ^ timeBits)
    (reads : ReadsAs read thin.data size content) (small : size < 2 ^ 64)
    (inside : ∀ block mapping, map block = some mapping →
      (mapping.1 + 1) * thin.block ≤ size)
    {within want : Nat} (some_want : 0 < want) :
    ∃ taken, 0 < taken ∧ taken ≤ want ∧ readThin read thin within want =
      .ok (buffer taken fun j => thinByte map thin.block content (within + j)) := by
  have inner := Nat.mod_lt within some_block
  refine ⟨min (thin.block - within % thin.block) want, by omega, Nat.min_le_right _ _, ?_⟩
  -- a piece stays in its block
  have place : ∀ j < min (thin.block - within % thin.block) want,
      (within + j) / thin.block = within / thin.block ∧
        (within + j) % thin.block = within % thin.block + j := by
    intro j taken
    have short : within % thin.block + j < thin.block := by omega
    constructor
    · conv_lhs => rw [← Nat.div_add_mod within thin.block, Nat.add_assoc]
      rw [Nat.mul_add_div some_block, Nat.div_eq_of_lt short, Nat.add_zero]
    · conv_lhs => rw [← Nat.div_add_mod within thin.block, Nat.add_assoc]
      rw [Nat.mul_add_mod, Nat.mod_eq_of_lt short]
  unfold readThin
  dsimp only
  rw [blocks.dataBlock timed]
  change ((.ok ((map (within / thin.block)).map Prod.fst) : Except BlockError (Option Nat)) >>= _) = _
  rw [ok_bind]
  cases own : map (within / thin.block) with
  | none =>
      rw [Option.map_none]
      dsimp only
      rw [replicate_eq_buffer]
      refine congrArg Except.ok (buffer_congr fun j taken => ?_)
      rw [thinByte, (place j taken).1, own]
  | some mapping =>
      have room := inside _ _ own
      rw [Nat.succ_mul] at room
      rw [Option.map_some]
      dsimp only
      rw [refuseIf_of_not (by omega), ok_bind, reads _ _ (by omega)]
      refine congrArg Except.ok (buffer_congr fun j taken => ?_)
      rw [thinByte, (place j taken).1, (place j taken).2, own, Nat.add_assoc]

end Blocks

/-! ## Segments -/

namespace Mapper

section Segments

variable {V : Type} {sub : String → Except LvmError (V × Nat)}
  {read : V → Nat → Nat → Except BlockError (List UInt8)} {mapper : Mapper} {name : String}
  {seg : Segment}

/-- The device of a thin segment, and its pool's sub-volumes: the data with its size, and the
metadata. -/
structure PoolOf (sub : String → Except LvmError (V × Nat)) (mapper : Mapper) (name : String)
    (seg : Segment) (dev : Nat) (data : V) (size : Nat) (metadata : V) : Prop where
  device : seg.deviceId = some dev
  pool : ∃ poolName tdata tmeta, seg.thinPool = some poolName ∧
    mapper.poolVolumes name poolName = .ok (tdata, tmeta) ∧ sub tdata = .ok (data, size) ∧
    ∃ metadataSize, sub tmeta = .ok (metadata, metadataSize)

/-- What a thin segment is resolved to. -/
theorem thin_eq_ok {map : RunMap V} (resolved : thin sub read mapper name seg = .ok map) :
    seg.startExtent = 0 ∧ ∃ dev data size metadata sb root,
      mapper.PoolOf sub name seg dev data size metadata ∧
      thinSuperblock (read metadata) = .ok sb ∧
      deviceRoot (read metadata) sb dev = .ok (some root) ∧
      map = .thin { block := sb.dataBlockSize, metadata, data, root } := by
  unfold thin at resolved
  obtain ⟨_, resolved⟩ := refuseIf_bind_eq_ok.mp resolved
  obtain ⟨starts, resolved⟩ := refuseIf_bind_eq_ok.mp resolved
  refine ⟨not_ne_iff.mp starts, ?_⟩
  split at resolved
  next poolName dev pool device =>
    obtain ⟨⟨tdata, tmeta⟩, volumes, resolved⟩ := bind_eq_ok.mp resolved
    obtain ⟨⟨metadata, metadataSize⟩, ownMetadata, resolved⟩ := bind_eq_ok.mp resolved
    obtain ⟨⟨data, size⟩, ownData, resolved⟩ := bind_eq_ok.mp resolved
    obtain ⟨sb, superblock, resolved⟩ := bind_eq_ok.mp resolved
    obtain ⟨found, looked, resolved⟩ := bind_eq_ok.mp resolved
    obtain ⟨root, present, resolved⟩ := bind_eq_ok.mp resolved
    rw [orRefuse_eq_ok.mp present] at looked
    cases resolved
    exact ⟨dev, data, size, metadata, sb, root,
      ⟨device, poolName, tdata, tmeta, pool, volumes, ownData, metadataSize, ownMetadata⟩,
      superblock, looked, rfl⟩
  next => cases resolved

/-- A thin segment that starts its volume, of a device its pool has, is resolved. -/
theorem thin_of_pool {dev size : Nat} {data metadata : V} {sb : ThinSuperblock} {root : Nat}
    (pool : mapper.PoolOf sub name seg dev data size metadata) (plain : seg.externalOrigin = none)
    (starts : seg.startExtent = 0) (superblock : thinSuperblock (read metadata) = .ok sb)
    (present : deviceRoot (read metadata) sb dev = .ok (some root)) :
    thin sub read mapper name seg =
      .ok (.thin { block := sb.dataBlockSize, metadata, data, root }) := by
  obtain ⟨poolName, tdata, tmeta, named, volumes, ownData, metadataSize, ownMetadata⟩ := pool.pool
  unfold thin
  dsimp only
  rw [refuseIf_of_not (by simp [plain]), ok_bind, refuseIf_of_not (not_ne_iff.mpr starts), ok_bind,
    named, pool.device]
  dsimp only
  rw [volumes, ok_bind]
  dsimp only
  rw [ownMetadata, ok_bind]
  dsimp only
  rw [ownData, ok_bind]
  dsimp only
  rw [superblock, ok_bind, present, ok_bind]
  rfl

/-- A device has one pool. -/
theorem PoolOf.unique {dev dev' : Nat} {data data' : V} {size size' : Nat}
    {metadata metadata' : V} (first : mapper.PoolOf sub name seg dev data size metadata)
    (second : mapper.PoolOf sub name seg dev' data' size' metadata') :
    dev = dev' ∧ data = data' ∧ size = size' ∧ metadata = metadata' := by
  obtain ⟨device, poolName, tdata, tmeta, pool, volumes, ownData, _, ownMetadata⟩ := first
  obtain ⟨device', poolName', tdata', tmeta', pool', volumes', ownData', _, ownMetadata'⟩ := second
  cases Option.some.inj (device.symm.trans device')
  cases Option.some.inj (pool.symm.trans pool')
  cases Except.ok.inj (volumes.symm.trans volumes')
  cases Except.ok.inj (ownData.symm.trans ownData')
  cases Except.ok.inj (ownMetadata.symm.trans ownMetadata')
  exact ⟨rfl, rfl, rfl, rfl⟩

theorem mapSegment_thin (kind : seg.kind = "thin") :
    mapSegment sub read mapper name seg = thin sub read mapper name seg := by
  rw [mapSegment, if_neg (by rw [kind]; decide), if_pos kind]

/-- A thin segment starts its volume. -/
theorem startExtent_of_thin {map : RunMap V}
    (resolved : mapSegment sub read mapper name seg = .ok map) (kind : seg.kind = "thin") :
    seg.startExtent = 0 := by
  rw [mapSegment_thin kind] at resolved
  exact (thin_eq_ok resolved).1

/-- Of thin segments that follow one another, one at most has extents. -/
theorem thin_extents {segs : List Segment} {next : Nat} {runs : List (Run V)} {last : Nat}
    (mapped : mapSegments sub read mapper name segs next = .ok (runs, last))
    (thin : ∀ seg ∈ segs, seg.kind = "thin") (listed : seg ∈ segs)
    (some_extents : 0 < seg.extentCount) :
    next = 0 ∧ extents segs = seg.extentCount ∧
      seg.extentCount * mapper.vg.extentSize < 2 ^ 64 ∧
      ∀ other ∈ segs, 0 < other.extentCount → other = seg := by
  have positive := mapper.vg.extentSize_pos
  induction segs generalizing next runs last seg with
  | nil => cases listed
  | cons first rest ih =>
      rw [mapSegments] at mapped
      obtain ⟨starts, mapped⟩ := refuseIf_bind_eq_ok.mp mapped
      obtain ⟨fits, mapped⟩ := refuseIf_bind_eq_ok.mp mapped
      obtain ⟨map, resolved, mapped⟩ := bind_eq_ok.mp mapped
      obtain ⟨⟨others, finish⟩, later, _⟩ := bind_eq_ok.mp mapped
      have start := startExtent_of_thin resolved (thin first List.mem_cons_self)
      have none : next = 0 := (not_ne_iff.mp starts).symm.trans start
      have small : first.extentCount < 2 ^ 64 :=
        Nat.lt_of_le_of_lt (Nat.le_mul_of_pos_right _ positive) (Nat.lt_of_not_le fits)
      have restThin : ∀ other ∈ rest, other.kind = "thin" :=
        fun other there => thin other (List.mem_cons_of_mem _ there)
      rw [none, Nat.zero_add, Nat.mod_eq_of_lt small] at later
      -- a segment with extents after one that has some would not start the volume
      have alone : ∀ other ∈ rest, 0 < other.extentCount → first.extentCount = 0 :=
        fun other there others => (ih later restThin there others).1
      refine ⟨none, ?_⟩
      rcases List.mem_cons.mp listed with rfl | further
      · have empty : ∀ other ∈ rest, other.extentCount = 0 := by
          intro other there
          by_contra others
          have := alone other there (Nat.pos_of_ne_zero others)
          omega
        refine ⟨?_, Nat.lt_of_not_le fits, fun other there others => ?_⟩
        · have total : extents rest = 0 := by
            rw [extents, List.sum_eq_zero_iff_forall_eq_nat]
            intro count counted
            obtain ⟨other, there, rfl⟩ := List.mem_map.mp counted
            exact empty other there
          rw [extents_cons, total, Nat.add_zero]
        · rcases List.mem_cons.mp there with rfl | after
          · rfl
          · have := empty other after
            omega
      · obtain ⟨empty, whole, room, only⟩ := ih later restThin further some_extents
        refine ⟨?_, room, fun other there others => ?_⟩
        · rw [extents_cons, empty, whole, Nat.zero_add]
        · rcases List.mem_cons.mp there with rfl | after
          · omega
          · exact only other after others

/-- A volume of thin segments is one of them, the others having no extents. -/
theorem exists_thin_segment {segs : List Segment} {runs : List (Run V)} {last : Nat}
    (mapped : mapSegments sub read mapper name segs 0 = .ok (runs, last))
    (thin : ∀ seg ∈ segs, seg.kind = "thin") (some_segment : segs ≠ []) :
    ∃ seg ∈ segs, extents segs = seg.extentCount ∧
      seg.extentCount * mapper.vg.extentSize < 2 ^ 64 ∧
      ∀ other ∈ segs, 0 < other.extentCount → other = seg := by
  by_cases filled : ∃ seg ∈ segs, 0 < seg.extentCount
  · obtain ⟨seg, listed, some_extents⟩ := filled
    obtain ⟨-, whole, room, only⟩ := thin_extents mapped thin listed some_extents
    exact ⟨seg, listed, whole, room, only⟩
  · push Not at filled
    have empty : ∀ seg ∈ segs, seg.extentCount = 0 :=
      fun seg listed => Nat.le_zero.mp (filled seg listed)
    obtain ⟨seg, listed⟩ := List.exists_mem_of_ne_nil segs some_segment
    refine ⟨seg, listed, ?_, ?_, fun other there others => ?_⟩
    · rw [empty seg listed, extents, List.sum_eq_zero_iff_forall_eq_nat]
      intro count counted
      obtain ⟨other, there, rfl⟩ := List.mem_map.mp counted
      exact empty other there
    · rw [empty seg listed, Nat.zero_mul]
      decide
    · have := empty other there
      omega

end Segments

end Mapper

/-- A sub-volume of striped segments reads as its bytes on the devices. -/
theorem Mapper.readsAs_striped {mapper : Mapper} {name : String} {levels : Nat}
    {runs : List (Run (Volume levels))} {size : Nat} {info : LogicalVolumeInfo}
    (known : ∀ uuid dev, mapper.deviceOf uuid = some dev → dev < mapper.devices.length)
    (mapped : mapper.map (levels + 1) name = .ok (runs, size))
    (named : mapper.lv name = .ok info) (striped : ∀ seg ∈ info.segments, seg.kind = "striped")
    (exact : extents info.segments * mapper.vg.extentSize < 2 ^ 64) {disks : List (List UInt8)}
    (held : List.Forall₂ BlockRead.Holds mapper.devices disks) :
    ReadsAs (readVolume mapper.devices (levels + 1)) runs size
      (mapper.volumeByte disks info.segments) :=
  fun _ _ inside => readVolume_striped known mapped named striped exact held inside

/-- A thin superblock has data blocks. -/
theorem dataBlockSize_pos {read : ReadBlock} {sb : ThinSuperblock}
    (superblock : thinSuperblock read = .ok sb) : 0 < sb.dataBlockSize := by
  unfold thinSuperblock at superblock
  obtain ⟨_, _, superblock⟩ := bind_eq_ok.mp superblock
  obtain ⟨_, superblock⟩ := refuseIf_bind_eq_ok.mp superblock
  obtain ⟨_, superblock⟩ := refuseIf_bind_eq_ok.mp superblock
  obtain ⟨_, superblock⟩ := refuseIf_bind_eq_ok.mp superblock
  obtain ⟨_, superblock⟩ := refuseIf_bind_eq_ok.mp superblock
  obtain ⟨some_block, superblock⟩ := refuseIf_bind_eq_ok.mp superblock
  cases superblock
  exact Nat.pos_of_ne_zero some_block

/-- A thin volume is one segment, of a device of a pool.  Where the pool's metadata holds a map
and its data sub-volume has room for every block the map gives the device, a read of the
volume returns, for each byte, that of the data block it is mapped to, and zero where there
is none. -/
theorem thin_volume_reads {devices : List BlockRead} {name : String} {volume : LogicalVolume}
    {mapper : Mapper} (opened : LogicalVolume.openVolume devices name = .ok volume)
    (found : Mapper.ofDevices devices = .ok mapper) (some_segment : volume.info.segments ≠ [])
    (thin : ∀ seg ∈ volume.info.segments, seg.kind = "thin") :
    ∃ seg ∈ volume.info.segments,
      (∀ other ∈ volume.info.segments, 0 < other.extentCount → other = seg) ∧
      volume.size = seg.extentCount * mapper.vg.extentSize ∧
      ∃ dev data size metadata sb,
        mapper.PoolOf (mapper.map 2) name seg dev data size metadata ∧
        thinSuperblock (readVolume devices 2 metadata) = .ok sb ∧
        ∀ map content, HoldsMappings (readVolume devices 2 metadata) sb.dataMappingRoot map →
          ReadsAs (readVolume devices 2) data size content →
          (∀ block mapping, map dev block = some mapping →
            (mapping.1 + 1) * sb.dataBlockSize ≤ size) →
          ∀ offset len, offset + len ≤ volume.size →
            volume.readAt offset len =
              .ok (buffer len fun j => thinByte (map dev) sb.dataBlockSize content (offset + j)) := by
  obtain ⟨sameDevices, other, again, ofDevices, named, mapped⟩ :=
    LogicalVolume.openVolume_eq_ok opened
  rw [found] at again
  cases again
  obtain ⟨info, last, named', segments, size_eq⟩ := Mapper.map_eq_ok mapped
  rw [named] at named'
  cases named'
  obtain ⟨seg, listed, whole, room, only⟩ :=
    Mapper.exists_thin_segment segments thin some_segment
  obtain ⟨rfl, tiles, resolved⟩ :=
    Mapper.tiles_of_mapSegments segments (by rw [Nat.zero_add, whole]; exact room)
  rw [Nat.zero_add, whole] at size_eq tiles
  rw [Nat.mod_eq_of_lt room] at size_eq
  rw [Nat.zero_mul, ← size_eq] at tiles
  obtain ⟨run, -, -, resolves⟩ := exists_of_mem_left resolved listed
  have own := resolves.map
  rw [Mapper.mapSegment_thin (thin seg listed)] at own
  obtain ⟨starts, dev, data, size, metadata, sb, root, pool, superblock, device, map_eq⟩ :=
    Mapper.thin_eq_ok own
  refine ⟨seg, listed, only, size_eq, dev, data, size, metadata, sb, pool, ofDevices ▸ superblock, ?_⟩
  intro map content holds reads inside offset len fits
  rw [← ofDevices] at holds reads
  obtain ⟨_, _, _, _, _, sub, _⟩ := pool.pool
  obtain ⟨_, _, _, _, data_size⟩ := Mapper.map_eq_ok sub
  have small : size < 2 ^ 64 := data_size ▸ Nat.mod_lt _ (by decide)
  rw [LogicalVolume.readAt, if_neg (by omega), sameDevices, ← ofDevices]
  refine readRuns_content tiles (by omega) ?_ fits
  intro piece there within want some_want ends
  obtain ⟨other, also, start, others⟩ := exists_of_mem_right resolved there
  have some_extents : 0 < other.extentCount := by
    by_contra none
    rw [others.len, Nat.eq_zero_of_not_pos none] at ends
    omega
  cases only other also some_extents
  have same : piece.map = run.map := Except.ok.inj (others.map.symm.trans resolves.map)
  let placed : ThinMap (Volume 2) := { block := sb.dataBlockSize, metadata, data, root }
  obtain ⟨taken, positive, bounded, got⟩ :=
    @readThin_content _ _ placed _ _ _ (dataBlockSize_pos superblock) (holds.deviceRoot device)
      (holds.timed dev) reads small inside within _ some_want
  refine ⟨taken, positive, bounded, ?_⟩
  rw [same, map_eq, start, starts, Nat.zero_mul]
  simp only [Nat.zero_add]
  exact got

end DiskPartitions
