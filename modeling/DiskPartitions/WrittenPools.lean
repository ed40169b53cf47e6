import DiskPartitions.ThinVolumes

/-!
# The metadata of a pool as it is written

The superblock and the btree nodes of a thin pool, laid out with the sums the reader checks.
Whatever is written to a node is what the node is read as.
-/

namespace DiskPartitions

open Slices LittleEndian Refusals SearchTrees BufferedReads Tilings

/-! ## Blocks -/

/-- A block under the checksum of its kind. -/
def summedBlock (xor : UInt32) (rest : List UInt8) : List UInt8 :=
  encode 4 (crc32cRegister rest ^^^ xor).toNat ++ rest

@[simp]
theorem length_summedBlock (xor : UInt32) (rest : List UInt8) :
    (summedBlock xor rest).length = 4 + rest.length := by
  rw [summedBlock, List.length_append, length_encode]

/-- Zeros between the fields of a block. -/
def padding (len : Nat) : List UInt8 := List.replicate len 0

@[simp]
theorem length_padding (len : Nat) : (padding len).length = len := List.length_replicate

/-- A field of a block, past its checksum. -/
theorem field_summedBlock {xor : UInt32} {rest : List UInt8} {offset width : Nat} :
    field (summedBlock xor rest) (4 + offset) width = field rest offset width := by
  rw [summedBlock, field_append_right (by simp), length_encode, Nat.add_sub_cancel_left]

/-- A block that is read as it was written is held. -/
theorem holdsBlock_summedBlock {read : ReadBlock} {n : Nat} {xor : UInt32} {rest : List UInt8}
    (inside : n * thinBlock < 2 ^ 64)
    (reads : read (n * thinBlock) thinBlock = .ok (summedBlock xor rest)) :
    HoldsBlock read n xor (summedBlock xor rest) where
  inside := inside
  reads := reads
  checksum := by
    have dropped : (summedBlock xor rest).drop 4 = rest := by
      rw [summedBlock, List.drop_left' (length_encode 4 _)]
    rw [dropped, summedBlock, field_encode_append]
    exact UInt32.toNat_lt _

/-! ## Nodes -/

/-- The entries a node has room for. -/
def nodeRoom : Nat := 254

/-- A node's header past its checksum: its kind, its own number, its entries counted, their
room and their width. -/
def nodeHeaderRest (kind place count : Nat) : List UInt8 :=
  [encode 4 kind, encode 8 place, encode 4 count, encode 4 nodeRoom, encode 4 8, padding 4].flatten

/-- A table of numbers, one for each entry there is room for. -/
def nodeTable (pick : Nat → Nat) : List UInt8 := blocks (fun i => encode 8 (pick i)) nodeRoom

/-- A node with its entries, the keys before the values. -/
def nodeBlock (kind place : Nat) (entries : List (Nat × Nat)) : List UInt8 :=
  summedBlock btreeCsumXor (nodeHeaderRest kind place entries.length ++
    (nodeTable (fun i => (entries.getD i (0, 0)).1) ++
      nodeTable (fun i => (entries.getD i (0, 0)).2)))

@[simp]
theorem length_nodeHeaderRest (kind place count : Nat) :
    (nodeHeaderRest kind place count).length = 28 := by
  simp [nodeHeaderRest]

@[simp]
theorem length_nodeTable (pick : Nat → Nat) : (nodeTable pick).length = 8 * nodeRoom := by
  rw [nodeTable, length_blocks fun _ _ => length_encode 8 _, Nat.mul_comm]

@[simp]
theorem length_nodeBlock (kind place : Nat) (entries : List (Nat × Nat)) :
    (nodeBlock kind place entries).length = thinBlock := by
  simp [nodeBlock, nodeRoom, thinBlock]

/-- A number of a table. -/
theorem field_nodeTable {pick : Nat → Nat} {i : Nat} (inside : i < nodeRoom)
    (bounded : pick i < 2 ^ 64) (tail : List UInt8) :
    field (nodeTable pick ++ tail) (8 * i) 8 = pick i := by
  have widths : ∀ index < nodeRoom, (encode 8 (pick index)).length = 8 :=
    fun index _ => length_encode 8 _
  have whole := slice_full (encode 8 (pick i))
  rw [length_encode] at whole
  rw [field, slice_append_left (by rw [length_nodeTable]; omega), nodeTable, Nat.mul_comm 8 i,
    ← Nat.add_zero (i * 8), slice_blocks widths inside (Nat.le_of_eq (Nat.zero_add 8)), whole,
    decode_encode]
  exact bounded

section Node

variable {kind place : Nat} {entries : List (Nat × Nat)}

/-- A field of a node's header. -/
theorem field_nodeHeader {offset width : Nat} (inside : offset + width ≤ 28) :
    field (nodeBlock kind place entries) (4 + offset) width =
      field (nodeHeaderRest kind place entries.length) offset width := by
  rw [nodeBlock, field_summedBlock, field, field, slice_append_left (by simpa using inside)]

/-- What is behind a node's header. -/
theorem field_nodeTables (offset : Nat) :
    field (nodeBlock kind place entries) (nodeHeader + offset) 8 =
      field (nodeTable (fun i => (entries.getD i (0, 0)).1) ++
        nodeTable (fun i => (entries.getD i (0, 0)).2)) offset 8 := by
  rw [nodeBlock, show nodeHeader + offset = 4 + (28 + offset) by simp only [nodeHeader]; omega,
    field_summedBlock, field_append_right (by simp), length_nodeHeaderRest, Nat.add_sub_cancel_left]

/-- What is written to a node is what it is read as. -/
theorem isNode_nodeBlock (kinds : kind < 2 ^ 32) (places : place < 2 ^ 64)
    (few : entries.length ≤ nodeRoom)
    (words : ∀ entry ∈ entries, entry.1 < 2 ^ 64 ∧ entry.2 < 2 ^ 64) :
    IsNode (nodeBlock kind place entries) kind place entries := by
  have counted : entries.length < 256 ^ 4 := Nat.lt_of_le_of_lt few (by decide)
  have indexed : ∀ i entry, entries[i]? = some entry →
      i < nodeRoom ∧ entries.getD i (0, 0) = entry := by
    intro i entry own
    have bound := (List.getElem?_eq_some_iff.mp own).1
    exact ⟨by omega, by rw [List.getD_eq_getElem?_getD, own, Option.getD_some]⟩
  have room : field (nodeBlock kind place entries) 20 4 = nodeRoom := by
    rw [show 20 = 4 + 16 from rfl, field_nodeHeader (by decide)]
    exact field_flatten [encode 4 kind, encode 8 place, encode 4 entries.length] _ (by simp)
      (by decide)
  refine ⟨?_, ?_, ?_, ?_, by rw [room]; exact few, by rw [room]; decide, ?_, ?_⟩
  · rw [show 8 = 4 + 4 from rfl, field_nodeHeader (by decide)]
    exact field_flatten [encode 4 kind] _ (by simp) places
  · rw [show 4 = 4 + 0 from rfl, field_nodeHeader (by decide)]
    exact field_flatten [] _ (by simp) kinds
  · rw [show 16 = 4 + 12 from rfl, field_nodeHeader (by decide)]
    exact field_flatten [encode 4 kind, encode 8 place] _ (by simp) counted
  · rw [show 24 = 4 + 20 from rfl, field_nodeHeader (by decide)]
    exact field_flatten [encode 4 kind, encode 8 place, encode 4 entries.length,
      encode 4 nodeRoom] _ (by simp) (by decide)
  · intro i entry own
    obtain ⟨inside, same⟩ := indexed i entry own
    have bounded := (words entry (List.mem_of_getElem? own)).1
    rw [field_nodeTables, field_nodeTable inside (by rw [same]; exact bounded), same]
  · intro i entry own
    obtain ⟨inside, same⟩ := indexed i entry own
    have bounded := (words entry (List.mem_of_getElem? own)).2
    rw [room, nodeValue, Nat.add_assoc, field_nodeTables, field_append_right (by simp),
      length_nodeTable, Nat.add_sub_cancel_left, ← List.append_nil (nodeTable _),
      field_nodeTable inside (by rw [same]; exact bounded), same]

end Node

/-- A node that is read as it was written is held. -/
theorem holdsNode_nodeBlock {read : ReadBlock} {kind place : Nat} {entries : List (Nat × Nat)}
    (inside : place * thinBlock < 2 ^ 64)
    (reads : read (place * thinBlock) thinBlock = .ok (nodeBlock kind place entries))
    (kinds : kind < 2 ^ 32) (few : entries.length ≤ nodeRoom)
    (words : ∀ entry ∈ entries, entry.1 < 2 ^ 64 ∧ entry.2 < 2 ^ 64) :
    HoldsNode read kind place entries := by
  have places : place < 2 ^ 64 :=
    Nat.lt_of_le_of_lt (Nat.le_mul_of_pos_right place (by decide)) inside
  exact ⟨_, holdsBlock_summedBlock inside reads, isNode_nodeBlock kinds places few words⟩

/-! ## The superblock -/

/-- A superblock past its checksum, for data blocks of so many sectors. -/
def superblockRest (root sectors : Nat) : List UInt8 :=
  [padding 28, encode 8 thinMagic, encode 4 2, padding 276, encode 8 root, padding 8,
    encode 4 sectors, encode 4 8, padding 16, encode 4 0, padding 3732].flatten

def superblock (root sectors : Nat) : List UInt8 :=
  summedBlock superblockCsumXor (superblockRest root sectors)

@[simp]
theorem length_superblock (root sectors : Nat) : (superblock root sectors).length = thinBlock := by
  simp [superblock, superblockRest, thinBlock]

/-- The superblock is read as it was written. -/
theorem thinSuperblock_superblock {read : ReadBlock} {root sectors : Nat}
    (reads : read 0 thinBlock = .ok (superblock root sectors)) (roots : root < 2 ^ 64)
    (some_sectors : 0 < sectors) (words : sectors < 2 ^ 32) :
    thinSuperblock read = .ok { dataMappingRoot := root, dataBlockSize := sectors * lvmSector } := by
  have held : HoldsBlock read 0 superblockCsumXor (superblock root sectors) :=
    holdsBlock_summedBlock (by decide) (by rwa [Nat.zero_mul])
  have magic : field (superblock root sectors) 32 8 = thinMagic := by
    rw [superblock, show 32 = 4 + 28 from rfl, field_summedBlock]
    exact field_flatten [padding 28] _ (by simp) (by decide)
  have version : field (superblock root sectors) 40 4 = 2 := by
    rw [superblock, show 40 = 4 + 36 from rfl, field_summedBlock]
    exact field_flatten [padding 28, encode 8 thinMagic] _ (by simp) (by decide)
  have mapping : field (superblock root sectors) 320 8 = root := by
    rw [superblock, show 320 = 4 + 316 from rfl, field_summedBlock]
    exact field_flatten [padding 28, encode 8 thinMagic, encode 4 2, padding 276] _ (by simp) roots
  have blockSize : field (superblock root sectors) 336 4 = sectors := by
    rw [superblock, show 336 = 4 + 332 from rfl, field_summedBlock]
    exact field_flatten [padding 28, encode 8 thinMagic, encode 4 2, padding 276, encode 8 root,
      padding 8] _ (by simp) words
  have metadataSize : field (superblock root sectors) 340 4 = 8 := by
    rw [superblock, show 340 = 4 + 336 from rfl, field_summedBlock]
    exact field_flatten [padding 28, encode 8 thinMagic, encode 4 2, padding 276, encode 8 root,
      padding 8, encode 4 sectors] _ (by simp) (by decide)
  have incompat : field (superblock root sectors) 360 4 = 0 := by
    rw [superblock, show 360 = 4 + 356 from rfl, field_summedBlock]
    exact field_flatten [padding 28, encode 8 thinMagic, encode 4 2, padding 276, encode 8 root,
      padding 8, encode 4 sectors, encode 4 8, padding 16] _ (by simp) (by decide)
  have sized : sectors * lvmSector ≠ 0 := Nat.ne_of_gt (Nat.mul_pos some_sectors (by decide))
  unfold thinSuperblock
  rw [held.checkedBlock, ok_bind, refuseIf_of_not (not_ne_iff.mpr magic), ok_bind]
  simp only [version, incompat, metadataSize, blockSize, mapping]
  rw [refuseIf_of_not (by decide), ok_bind, refuseIf_of_not (by decide), ok_bind,
    refuseIf_of_not (by decide), ok_bind, refuseIf_of_not sized, ok_bind]

/-! ## Volumes of one segment -/

namespace Mapper

variable {mapper : Mapper} {name : String} {levels : Nat} {info : LogicalVolumeInfo}
  {seg : Segment}

/-- A volume of one segment is one run. -/
theorem map_single {map : RunMap (Volume levels)} (named : mapper.lv name = .ok info)
    (one : info.segments = [seg]) (starts : seg.startExtent = 0)
    (fits : seg.extentCount * mapper.vg.extentSize < 2 ^ 64)
    (resolved : mapSegment (mapper.map levels) (readVolume mapper.devices levels) mapper name seg =
      .ok map) :
    mapper.map (levels + 1) name =
      .ok ([⟨0, seg.extentCount * mapper.vg.extentSize, map⟩],
        seg.extentCount * mapper.vg.extentSize) := by
  have small : seg.extentCount < 2 ^ 64 :=
    Nat.lt_of_le_of_lt (Nat.le_mul_of_pos_right _ mapper.vg.extentSize_pos) fits
  rw [Mapper.map, named, ok_bind, one, mapSegments, refuseIf_of_not (not_ne_iff.mpr starts),
    ok_bind]
  dsimp only
  rw [refuseIf_of_not (Nat.not_le.mpr fits), ok_bind, resolved, ok_bind, mapSegments, ok_bind]
  simp only [Nat.zero_add, Nat.zero_mul, Nat.mod_eq_of_lt small, ok_bind, Nat.mod_eq_of_lt fits,
    Nat.zero_mod]

/-- A stripe whose extents are on its physical volume and on the device is found. -/
theorem stripeStart_of_fits {perStripe : Nat} {st : Stripe} {pv : PhysicalVolume} {dev : Nat}
    {device : BlockRead}
    (found : mapper.vg.physicalVolumes.find? (fun pv => pv.name = st.pv) = some pv)
    (given : mapper.deviceOf pv.uuid = some dev) (listed : mapper.devices[dev]? = some device)
    (extents : st.startExtent + perStripe ≤ pv.peCount)
    (fits : st.startExtent * mapper.vg.extentSize + pv.peStart +
      perStripe * mapper.vg.extentSize ≤ device.sizeBytes.toNat) :
    mapper.stripeStart name perStripe st =
      .ok (dev, st.startExtent * mapper.vg.extentSize + pv.peStart) := by
  have size := device.sizeBytes.toNat_lt
  have word : st.startExtent + perStripe < 2 ^ 64 := by
    have scaled := Nat.le_mul_of_pos_right (st.startExtent + perStripe) mapper.vg.extentSize_pos
    rw [Nat.add_mul] at scaled
    omega
  unfold stripeStart
  dsimp only
  rw [orRefuse_eq_ok.mpr found, ok_bind, orRefuse_eq_ok.mpr given, ok_bind,
    refuseIf_of_not (by omega), ok_bind, refuseIf_of_not (by omega), ok_bind, listed]
  simp only [Option.map_some, Option.getD_some]
  rw [refuseIf_of_not (by omega), ok_bind]

/-- A segment of one stripe is read on from where the stripe starts. -/
theorem mapSegment_linear {V : Type} {sub : String → Except LvmError (V × Nat)}
    {read : V → Nat → Nat → Except BlockError (List UInt8)} {st : Stripe} {start : Nat × Nat}
    (striped : seg.kind = "striped") (one : seg.stripes = [st])
    (started : mapper.stripeStart name seg.extentCount st = .ok start) :
    mapSegment sub read mapper name seg = .ok (.striped seg.stripeSize [start]) := by
  rw [mapSegment, if_pos striped]
  unfold Mapper.striped
  rw [one]
  simp only [List.length_singleton, Nat.div_one, Nat.mod_one, List.mapM_cons, List.mapM_nil,
    started, ok_bind, pure_eq_ok]
  rw [refuseIf_of_not (by simp), ok_bind, refuseIf_of_not (by simp), ok_bind]

/-- A byte of a volume of one stripe, on its device. -/
theorem volumeByte_linear {st : Stripe} {pv : PhysicalVolume} {dev pos : Nat}
    (disks : List (List UInt8)) (starts : seg.startExtent = 0) (one : seg.stripes = [st])
    (found : mapper.vg.physicalVolumes.find? (fun pv => pv.name = st.pv) = some pv)
    (given : mapper.deviceOf pv.uuid = some dev)
    (inside : pos < seg.extentCount * mapper.vg.extentSize) :
    mapper.volumeByte disks [seg] pos =
      (disks.getD dev []).getD (pv.peStart + st.startExtent * mapper.vg.extentSize + pos)
        default := by
  have place : mapper.extentPlace seg pos =
      some (pv, dev, pv.peStart + st.startExtent * mapper.vg.extentSize + pos) := by
    simp [extentPlace, Segment.stripeOf, Segment.stripeOffset, one, found, given]
  have covers : (mapper.segmentTile disks seg).Covers pos := by
    simp [Tile.Covers, segmentTile, starts, inside]
  rw [volumeByte, List.map_singleton, locate, List.find?_cons_of_pos (by simpa using covers),
    Option.map_some, Option.getD_some]
  simp only [segmentTile, starts, Nat.zero_mul, Nat.sub_zero, extentByte, place]

end Mapper

/-! ## A thin volume over one physical volume -/

/-- Eight data blocks of a sector, each holding its own number throughout. -/
def numberedBlocks : List UInt8 := buffer 4096 fun place => UInt8.ofNat (place / 512)

/-- A pool with one device, whose block 1 is kept in data block 3. -/
def thinPool : WrittenPv where
  letter := 0x61
  text := textOf [
    "vg \x7b", "id = \"vg\"", "seqno = 1", "extent_size = 8",
    "physical_volumes \x7b",
    "pv0 \x7b", "id = \"aaaaaaaa-aaaaaaaa-aaaaaaaa-aaaaaaaa\"", "pe_start = 4", "pe_count = 4", "\x7d",
    "\x7d",
    "logical_volumes \x7b",
    "pool \x7b", "segment1 \x7b", "start_extent = 0", "extent_count = 1", "type = \"thin-pool\"",
    "metadata = \"m\"", "pool = \"d\"", "\x7d", "\x7d",
    "m \x7b", "segment1 \x7b", "start_extent = 0", "extent_count = 3", "type = \"striped\"",
    "stripe_count = 1", "stripes = [\"pv0\", 0]", "\x7d", "\x7d",
    "d \x7b", "segment1 \x7b", "start_extent = 0", "extent_count = 1", "type = \"striped\"",
    "stripe_count = 1", "stripes = [\"pv0\", 3]", "\x7d", "\x7d",
    "t \x7b", "segment1 \x7b", "start_extent = 0", "extent_count = 1", "type = \"thin\"",
    "thin_pool = \"pool\"", "device_id = 1", "\x7d", "\x7d",
    "\x7d", "\x7d"]
  data := superblock 1 1 ++ nodeBlock leafNode 1 [(1, 2)] ++
    nodeBlock leafNode 2 [(1, packTime (3, 5))] ++ numberedBlocks
  some_text := by decide +kernel
  text_le := by decide +kernel
  no_nul := by decide +kernel
  data_lt := by
    simp only [List.length_append, length_superblock, length_nodeBlock, numberedBlocks,
      length_buffer]
    decide

/-- A segment of so many extents of the physical volume. -/
def poolExtents (extent count : Nat) : Segment :=
  ⟨0, count, "striped", 0, [⟨"pv0", extent⟩], [], [], none, none, none, oneStripe_sized extent⟩

def thinSegment : Segment :=
  ⟨0, 1, "thin", 0, [], [], [], some "pool", some 1, none, unstriped_sized⟩

def poolPv : PhysicalVolume := ⟨"pv0", "aaaaaaaaaaaaaaaaaaaaaaaaaaaaaaaa", 2048, 4⟩

theorem eightSectors_pos : 0 < 4096 := by decide

def thinPoolVg : VolumeGroup :=
  ⟨"vg", "vg", 1, 4096, [poolPv],
    [⟨"pool", "", [⟨0, 1, "thin-pool", 0, [], ["d"], ["m"], none, none, none, unstriped_sized⟩]⟩,
      ⟨"m", "", [poolExtents 0 3]⟩, ⟨"d", "", [poolExtents 3 1]⟩, ⟨"t", "", [thinSegment]⟩],
    eightSectors_pos⟩

def thinPoolMapper : Mapper where
  vg := thinPoolVg
  uuidToDev := [(thinPool.label.uuid, 0)]
  devices := [thinPool.device.toBlockRead]

theorem ofDevices_thinPool :
    Mapper.ofDevices [thinPool.device.toBlockRead] = .ok thinPoolMapper := by
  have parsed : (parseMetadata (Utf8.fromUtf8Lossy thinPool.text) >>=
      VolumeGroup.fromMetadata) = .ok thinPoolVg := by
    rw [parseMetadata_ascii (by decide +kernel)]
    decide +kernel
  exact WrittenPv.ofDevices_device parsed

theorem length_thinPool : thinPool.data.length = 16384 := by
  simp only [thinPool, List.length_append, length_superblock, length_nodeBlock, numberedBlocks,
    length_buffer]
  rfl

theorem deviceOf_thinPool : thinPoolMapper.deviceOf poolPv.uuid = some 0 := by decide +kernel

/-- The physical volume has room for the extents of both sub-volumes. -/
theorem map_poolExtents {name : String} {extent count : Nat}
    (named : thinPoolMapper.lv name = .ok ⟨name, "", [poolExtents extent count]⟩)
    (inside : extent + count ≤ 4) :
    thinPoolMapper.map 2 name =
      .ok ([⟨0, count * 4096, .striped 0 [(0, extent * 4096 + 2048)]⟩], count * 4096) := by
  have room : thinPool.device.toBlockRead.sizeBytes.toNat = 18432 := by
    rw [WrittenPv.size_device, length_thinPool]
  have found : thinPoolMapper.vg.physicalVolumes.find? (fun pv => pv.name = "pv0") =
      some poolPv := by decide +kernel
  have listed : thinPoolMapper.devices[0]? = some thinPool.device.toBlockRead := rfl
  have fits : extent * 4096 + 2048 + count * 4096 ≤
      thinPool.device.toBlockRead.sizeBytes.toNat := by
    rw [room]
    omega
  have started : thinPoolMapper.stripeStart name count ⟨"pv0", extent⟩ =
      .ok (0, extent * 4096 + 2048) :=
    Mapper.stripeStart_of_fits found deviceOf_thinPool listed inside fits
  have resolved := @Mapper.mapSegment_linear thinPoolMapper name (poolExtents extent count) _
    (thinPoolMapper.map 1) (readVolume thinPoolMapper.devices 1) _ _ rfl rfl started
  have small : count * 4096 < 2 ^ 64 := by omega
  exact @Mapper.map_single thinPoolMapper name 1 _ (poolExtents extent count) _ named rfl rfl small
    resolved

/-- A sub-volume of the pool reads as its extents of the data. -/
theorem readsAs_poolExtents {name : String} {extent count : Nat} {runs : Volume 2} {size : Nat}
    (named : thinPoolMapper.lv name = .ok ⟨name, "", [poolExtents extent count]⟩)
    (inside : extent + count ≤ 4) (mapped : thinPoolMapper.map 2 name = .ok (runs, size)) :
    ReadsAs (readVolume thinPoolMapper.devices 2) runs size
      fun pos => thinPool.data.getD (extent * 4096 + pos) default := by
  have known : ∀ uuid dev, thinPoolMapper.deviceOf uuid = some dev →
      dev < thinPoolMapper.devices.length := fun _ _ => Mapper.deviceOf_lt ofDevices_thinPool
  have exact : Mapper.extents [poolExtents extent count] * 4096 < 2 ^ 64 := by
    change (count + 0) * 4096 < 2 ^ 64
    omega
  have sized : size = count * 4096 := by
    have same := (map_poolExtents named inside).symm.trans mapped
    exact (congrArg Prod.snd (Except.ok.inj same)).symm
  have reads := Mapper.readsAs_striped known mapped named (by simp [poolExtents]) exact
    (.cons thinPool.device.holds .nil)
  intro offset len fits
  rw [reads offset len fits]
  refine congrArg Except.ok (buffer_congr fun j taken => ?_)
  have short : offset + j < (poolExtents extent count).extentCount * thinPoolMapper.vg.extentSize := by
    change offset + j < count * 4096
    omega
  have byte := @Mapper.volumeByte_linear thinPoolMapper (poolExtents extent count) ⟨"pv0", extent⟩
    poolPv 0 (offset + j) [thinPool.bytes] rfl rfl rfl deviceOf_thinPool short
  refine byte.trans ?_
  rw [List.getD_cons_zero]
  change thinPool.bytes.getD (2048 + extent * 4096 + (offset + j)) default = _
  rw [Nat.add_assoc, WrittenPv.getD_bytes]

def metadataRuns : Volume 2 := [⟨0, 3 * 4096, .striped 0 [(0, 0 * 4096 + 2048)]⟩]

def dataRuns : Volume 2 := [⟨0, 1 * 4096, .striped 0 [(0, 3 * 4096 + 2048)]⟩]

theorem lv_metadata : thinPoolMapper.lv "m" = .ok ⟨"m", "", [poolExtents 0 3]⟩ := by
  decide +kernel

theorem lv_data : thinPoolMapper.lv "d" = .ok ⟨"d", "", [poolExtents 3 1]⟩ := by decide +kernel

theorem map_metadata : thinPoolMapper.map 2 "m" = .ok (metadataRuns, 3 * 4096) :=
  map_poolExtents lv_metadata (by decide)

theorem map_data : thinPoolMapper.map 2 "d" = .ok (dataRuns, 1 * 4096) :=
  map_poolExtents lv_data (by decide)

/-- A block of the metadata is read as it stands in the data of the physical volume. -/
theorem reads_metadata {n : Nat} (inside : n < 3) :
    readVolume thinPoolMapper.devices 2 metadataRuns (n * thinBlock) thinBlock =
      .ok (slice thinPool.data (n * thinBlock) thinBlock) := by
  have block : n * thinBlock + thinBlock ≤ 3 * 4096 := by
    simp only [thinBlock]
    omega
  have whole : n * thinBlock + thinBlock ≤ thinPool.data.length := by
    rw [length_thinPool]
    omega
  have reads := readsAs_poolExtents lv_metadata (by decide) map_metadata _ _ block
  rw [reads, slice_eq_buffer whole]
  simp only [Nat.zero_mul, Nat.zero_add]

theorem reads_superblock :
    readVolume thinPoolMapper.devices 2 metadataRuns 0 thinBlock = .ok (superblock 1 1) := by
  have stored : slice thinPool.data (0 * thinBlock) thinBlock = superblock 1 1 := by
    have whole := slice_full (superblock 1 1)
    rw [length_superblock] at whole
    simp only [thinPool, List.append_assoc, Nat.zero_mul]
    rw [slice_append_left (by simp), whole]
  have reads := reads_metadata (by decide : 0 < 3)
  rwa [stored, Nat.zero_mul] at reads

/-- The devices: the one with root 2. -/
theorem holdsNode_devices :
    HoldsNode (readVolume thinPoolMapper.devices 2 metadataRuns) leafNode 1 [(1, 2)] := by
  have stored : slice thinPool.data (1 * thinBlock) thinBlock = nodeBlock leafNode 1 [(1, 2)] := by
    have whole := slice_full (nodeBlock leafNode 1 [(1, 2)])
    rw [length_nodeBlock] at whole
    simp only [thinPool, List.append_assoc, Nat.one_mul]
    rw [slice_append_right (by simp), length_superblock, Nat.sub_self,
      slice_append_left (by simp), whole]
  have reads := reads_metadata (by decide : 1 < 3)
  rw [stored] at reads
  exact holdsNode_nodeBlock (by decide) reads (by decide) (by decide) (by simp)

/-- The device's blocks: the one that is mapped. -/
theorem holdsNode_mappings :
    HoldsNode (readVolume thinPoolMapper.devices 2 metadataRuns) leafNode 2
      [(1, packTime (3, 5))] := by
  have stored : slice thinPool.data (2 * thinBlock) thinBlock =
      nodeBlock leafNode 2 [(1, packTime (3, 5))] := by
    have whole := slice_full (nodeBlock leafNode 2 [(1, packTime (3, 5))])
    rw [length_nodeBlock] at whole
    simp only [thinPool, List.append_assoc]
    rw [slice_append_right (by simp only [length_superblock, thinBlock]; decide),
      length_superblock, slice_append_right (by simp only [length_nodeBlock, thinBlock]; decide),
      length_nodeBlock, show 2 * thinBlock - thinBlock - thinBlock = 0 from rfl,
      slice_append_left (by simp), whole]
  have reads := reads_metadata (by decide : 2 < 3)
  rw [stored] at reads
  exact holdsNode_nodeBlock (by decide) reads (by decide) (by decide) (by simp [packTime, timeBits])

/-- What the metadata maps: of one device, one block. -/
def thinPoolMap (dev block : Nat) : Option (Nat × Nat) :=
  if dev = 1 ∧ block = 1 then some (3, 5) else none

/-- A written leaf is a tree of its entries. -/
theorem holdsTree_leaf {read : ReadBlock} {place : Nat} {entries : List (Nat × Nat)}
    {map : Nat → Option Nat} (node : HoldsNode read leafNode place entries)
    (ascending : Ascending entries)
    (whole : ∀ key value, map key = some value ↔ (key, value) ∈ entries) :
    HoldsTree read place map :=
  @Holds.leaf _ _ _ _ _ _ 15 _ _ _ node ascending whole

theorem holdsTree_devices :
    HoldsTree (readVolume thinPoolMapper.devices 2 metadataRuns) 1
      fun dev => if dev = 1 then some 2 else none := by
  refine holdsTree_leaf holdsNode_devices (List.pairwise_singleton _ _) fun dev place => ?_
  by_cases one : dev = 1
  · simp [one, eq_comm]
  · simp [one]

theorem holdsMappings_thinPool :
    HoldsMappings (readVolume thinPoolMapper.devices 2 metadataRuns) 1 thinPoolMap where
  timed dev block mapping own := by
    unfold thinPoolMap at own
    split at own
    · cases own
      decide
    · cases own
  trees := by
    refine ⟨_, holdsTree_devices, fun dev place own => ?_, fun dev absent block => ?_⟩
    · by_cases one : dev = 1
      · rw [if_pos one] at own
        cases own
        subst one
        refine holdsTree_leaf holdsNode_mappings (List.pairwise_singleton _ _) fun block value => ?_
        by_cases mapped : block = 1
        · simp [thinPoolMap, mapped, eq_comm]
        · simp [thinPoolMap, mapped]
      · rw [if_neg one] at own
        cases own
    · have other : dev ≠ 1 := by
        intro one
        rw [if_pos one] at absent
        cases absent
      rw [thinPoolMap, if_neg fun both => other both.1]

/-- The sub-volumes of the pool of the thin volume. -/
theorem poolOf_thinSegment :
    thinPoolMapper.PoolOf (thinPoolMapper.map 2) "t" thinSegment 1 dataRuns (1 * 4096)
      metadataRuns where
  device := rfl
  pool := ⟨"pool", "d", "m", rfl, by decide +kernel, map_data, 3 * 4096, map_metadata⟩

theorem openVolume_thinPool :
    ∃ volume, LogicalVolume.openVolume [thinPool.device.toBlockRead] "t" = .ok volume ∧
      volume.info = ⟨"t", "", [thinSegment]⟩ := by
  have sb := thinSuperblock_superblock reads_superblock (by decide) (by decide) (by decide)
  have present := holdsTree_devices.lookup 1
  have resolved := Mapper.thin_of_pool poolOf_thinSegment rfl rfl sb present
  have named : thinPoolMapper.lv "t" = .ok ⟨"t", "", [thinSegment]⟩ := by decide +kernel
  have mapped := (Mapper.mapSegment_thin rfl).trans resolved
  have small : thinSegment.extentCount * thinPoolMapper.vg.extentSize < 2 ^ 64 := by decide
  have opened := openVolume_of_map ofDevices_thinPool named
    (Mapper.map_single named rfl rfl small mapped)
  exact ⟨_, opened, rfl⟩

/-- A byte of the data sub-volume. -/
theorem getD_thinPool {x : Nat} (inside : x < 4096) :
    thinPool.data.getD (3 * 4096 + x) default = UInt8.ofNat (x / 512) := by
  have front : (superblock 1 1 ++ nodeBlock leafNode 1 [(1, 2)] ++
      nodeBlock leafNode 2 [(1, packTime (3, 5))]).length = 3 * 4096 := by
    simp only [List.length_append, length_superblock, length_nodeBlock, thinBlock]
  simp only [thinPool]
  rw [List.getD_append_right _ _ _ _ (by rw [front]; omega), front, Nat.add_sub_cancel_left,
    List.getD_eq_getElem?_getD, numberedBlocks, getElem?_buffer _ inside, Option.getD_some]

/-- A read from a hole over the mapped block into the next hole. -/
theorem readAt_thinPool :
    ∃ volume bytes, LogicalVolume.openVolume [thinPool.device.toBlockRead] "t" = .ok volume ∧
      volume.size = 4096 ∧ volume.readAt 511 514 = .ok bytes ∧
      bytes[0]? = some 0 ∧ bytes[1]? = some 3 ∧ bytes[512]? = some 3 ∧ bytes[513]? = some 0 := by
  obtain ⟨volume, opened, info⟩ := openVolume_thinPool
  obtain ⟨seg, listed, -, size, dev, data, dataSize, metadata, sb, pool, superblock, reads⟩ :=
    thin_volume_reads opened ofDevices_thinPool (by rw [info]; simp) (by rw [info]; simp [thinSegment])
  rw [info, List.mem_singleton] at listed
  subst listed
  obtain ⟨rfl, rfl, rfl, rfl⟩ := pool.unique poolOf_thinSegment
  have own := thinSuperblock_superblock reads_superblock (by decide) (by decide) (by decide)
  cases superblock.symm.trans own
  have inside : ∀ block mapping, thinPoolMap 1 block = some mapping →
      (mapping.1 + 1) * (1 * lvmSector) ≤ 1 * 4096 := by
    intro block mapping mapped
    unfold thinPoolMap at mapped
    split at mapped
    · cases mapped
      decide
    · cases mapped
  have whole : 511 + 514 ≤ volume.size := by
    rw [size]
    decide
  have bytes := reads thinPoolMap _ holdsMappings_thinPool
    (readsAs_poolExtents lv_data (by decide) map_data) inside 511 514 whole
  refine ⟨volume, _, opened, size, bytes, ?_, ?_, ?_, ?_⟩
  · rw [getElem?_buffer _ (by decide)]
    rfl
  · rw [getElem?_buffer _ (by decide)]
    exact congrArg some (getD_thinPool (by decide : 3 * 512 + 0 < 4096))
  · rw [getElem?_buffer _ (by decide)]
    exact congrArg some (getD_thinPool (by decide : 3 * 512 + 511 < 4096))
  · rw [getElem?_buffer _ (by decide)]
    rfl

end DiskPartitions
