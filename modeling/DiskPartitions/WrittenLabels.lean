import DiskPartitions.LogicalVolumes
import Mathlib.Data.List.TakeWhile

/-!
# A physical volume as it is written

The bytes of a physical volume with its label in the first sector, one metadata area after
it and its data behind that, and what the reader makes of them: the label, the text, and the
group and device the text and the label name.
-/

namespace DiskPartitions

open Slices LittleEndian Refusals BufferedReads Utf8

/-- The bytes of a text given line by line. -/
def textOf (lines : List String) : List UInt8 :=
  lines.flatMap fun line => line.toUTF8.data.toList ++ [10]

/-- An extent of one sector is not empty. -/
theorem oneSector_pos : 0 < 512 := by decide

/-- A segment without stripes needs no stripe size. -/
theorem unstriped_sized : 1 < ([] : List Stripe).length → 0 < 0 := by simp

/-- One over a single stripe does not either. -/
theorem oneStripe_sized (extent : Nat) :
    1 < [(⟨"pv0", extent⟩ : Stripe)].length → 0 < 0 := by simp

/-- What is written to a physical volume: a UUID of one repeated byte, the metadata text, and
the data from byte 2048 on. -/
structure WrittenPv where
  letter : UInt8
  text : List UInt8
  data : List UInt8
  some_text : text ≠ []
  text_le : text.length ≤ 1024
  no_nul : ∀ byte ∈ text, byte ≠ 0
  data_lt : data.length < 2 ^ 63

namespace WrittenPv

/-- The label from the checksummed part on. -/
def labelRest (pv : WrittenPv) : List UInt8 :=
  encode 4 32 ++ labelType ++ List.replicate 32 pv.letter ++ encode 8 0 ++ List.replicate 16 0 ++
    encode 8 512 ++ encode 8 1536 ++ List.replicate 408 0

def labelSector (pv : WrittenPv) : List UInt8 :=
  labelId ++ encode 8 0 ++ u32Bytes (lvmCrc pv.labelRest) ++ pv.labelRest

/-- The area header from the checksummed part on. -/
def areaRest (pv : WrittenPv) : List UInt8 :=
  mdaMagic ++ List.replicate 20 0 ++ encode 8 512 ++ encode 8 pv.text.length ++
    u32Bytes (lvmCrc pv.text) ++ List.replicate 452 0

def areaHeader (pv : WrittenPv) : List UInt8 :=
  u32Bytes (lvmCrc pv.areaRest) ++ pv.areaRest

def bytes (pv : WrittenPv) : List UInt8 :=
  pv.labelSector ++ pv.areaHeader ++ (pv.text ++ List.replicate (1024 - pv.text.length) 0) ++
    pv.data

@[simp]
theorem length_labelSector (pv : WrittenPv) : pv.labelSector.length = 512 := by
  simp only [labelSector, labelRest, List.length_append, length_encode, length_u32Bytes,
    List.length_replicate]
  rfl

@[simp]
theorem length_areaHeader (pv : WrittenPv) : pv.areaHeader.length = 512 := by
  simp only [areaHeader, areaRest, List.length_append, length_encode, length_u32Bytes,
    List.length_replicate]
  rfl

theorem length_bytes (pv : WrittenPv) : pv.bytes.length = 2048 + pv.data.length := by
  have fits := pv.text_le
  simp only [bytes, List.length_append, length_labelSector, length_areaHeader,
    List.length_replicate]
  omega

/-- The device. -/
def device (pv : WrittenPv) : ByteDevice where
  bytes := pv.bytes
  writable := false
  flushed := .ok ()
  journal := []
  length_lt := by
    have small := pv.data_lt
    rw [length_bytes]
    omega

theorem size_device (pv : WrittenPv) :
    pv.device.toBlockRead.sizeBytes.toNat = 2048 + pv.data.length :=
  pv.device.toNat_sizeBytes.trans pv.length_bytes

theorem readLvm_device {pv : WrittenPv} {offset len : Nat}
    (inside : offset + len ≤ 2048 + pv.data.length) :
    pv.device.toBlockRead.readLvm offset len = .ok (slice pv.bytes offset len) := by
  have fits : offset + len ≤ pv.device.bytes.length := by
    change _ ≤ pv.bytes.length
    rw [length_bytes]
    exact inside
  unfold BlockRead.readLvm
  change (pv.device.readAt offset len).mapError _ = _
  rw [ByteDevice.readAt_of_le fits]
  rfl

/-- A byte of the data, by its place on the device. -/
theorem getD_bytes (pv : WrittenPv) (place : Nat) :
    pv.bytes.getD (2048 + place) default = pv.data.getD place default := by
  have fits := pv.text_le
  have front : (pv.labelSector ++ pv.areaHeader ++
      (pv.text ++ List.replicate (1024 - pv.text.length) 0)).length = 2048 := by
    simp only [List.length_append, length_labelSector, length_areaHeader, List.length_replicate]
    omega
  rw [bytes, List.getD_append_right _ _ _ _ (by rw [front]; omega), front, Nat.add_sub_cancel_left]

/-! ## The label -/

theorem slice_label (pv : WrittenPv) : slice pv.bytes 0 512 = pv.labelSector := by
  rw [bytes, List.append_assoc, List.append_assoc, slice_append_left (by simp)]
  have whole := slice_full pv.labelSector
  rwa [length_labelSector] at whole

def label (pv : WrittenPv) : PvLabel where
  labelSector := 0
  uuid := fromUtf8Lossy (List.replicate 32 pv.letter)
  deviceSize := 0
  dataAreas := []
  metadataAreas := [(512, 1536)]

theorem parseLabel_labelSector (pv : WrittenPv) (device : Nat) :
    parseLabel pv.labelSector 0 device = .ok pv.label := by
  have sum : field pv.labelSector 16 4 = (lvmCrc (pv.labelSector.drop 20)).toNat :=
    field_of_slice rfl (UInt32.toNat_lt _)
  have kind : slice pv.labelSector 24 8 = labelType := rfl
  have place : field pv.labelSector 20 4 = 32 := field_of_slice rfl (by decide)
  have data : field pv.labelSector 72 8 = 0 := field_of_slice rfl (by decide)
  have area : field pv.labelSector 88 8 = 512 := field_of_slice rfl (by decide)
  have size : field pv.labelSector 96 8 = 1536 := field_of_slice rfl (by decide)
  have last : field pv.labelSector 104 8 = 0 := field_of_slice rfl (by decide)
  have recorded : field pv.labelSector 64 8 = 0 := field_of_slice rfl (by decide)
  unfold parseLabel
  rw [refuseIf_of_not (by rw [sum]; simp), ok_bind, refuseIf_of_not (by rw [kind]; simp), ok_bind]
  simp only [place]
  rw [refuseIf_of_not (by decide), ok_bind]
  have none : readAreas pv.labelSector ((lvmSector - (32 + 40)) / 16) (32 + 40) = .ok ([], 88) := by
    rw [show (lvmSector - (32 + 40)) / 16 = 26 + 1 from rfl, readAreas]
    simp only [data, if_true]
  have one : readAreas pv.labelSector ((lvmSector - 88) / 16) 88 = .ok ([(512, 1536)], 120) := by
    rw [show (lvmSector - 88) / 16 = 24 + 1 + 1 from rfl, readAreas, readAreas]
    simp only [area, size, last, if_true]
    rfl
  rw [none, ok_bind]
  dsimp only
  rw [one, ok_bind]
  dsimp only
  rw [recorded]
  rfl

/-- The label is read as it was written. -/
theorem requireLabel_device (pv : WrittenPv) (device : Nat) :
    requireLabel pv.device.toBlockRead device = .ok pv.label := by
  have name : slice pv.labelSector 0 8 = labelId := rfl
  have number : field pv.labelSector 8 8 = 0 := field_of_slice rfl (by decide)
  unfold requireLabel readPvLabelOf
  rw [show List.range labelScanSectors = [0, 1, 2, 3] from rfl, scanLabel, size_device,
    if_neg (by simp only [lvmSector]; omega), Nat.zero_mul,
    readLvm_device (by simp only [lvmSector]; omega), ok_bind]
  have sector : slice pv.bytes 0 lvmSector = pv.labelSector := pv.slice_label
  rw [sector, if_neg (by simp [name, number]), parseLabel_labelSector]
  rfl

/-! ## The metadata area -/

theorem slice_area (pv : WrittenPv) : slice pv.bytes 512 512 = pv.areaHeader := by
  rw [bytes, List.append_assoc, List.append_assoc, slice_append_right (by simp),
    slice_append_left (by simp)]
  have whole := slice_full pv.areaHeader
  rw [length_areaHeader] at whole
  simpa using whole

theorem slice_text (pv : WrittenPv) : slice pv.bytes 1024 pv.text.length = pv.text := by
  have fits := pv.text_le
  rw [bytes, List.append_assoc, slice_append_right (by simp), List.append_assoc,
    slice_append_left (by simp)]
  simp [slice]

/-- The text is read as it was written. -/
theorem readArea_device (pv : WrittenPv) (device : Nat) :
    readArea pv.device.toBlockRead 512 1536 device = .ok (some (fromUtf8Lossy pv.text)) := by
  have fits := pv.text_le
  have positive : 0 < pv.text.length := List.length_pos_iff.mpr pv.some_text
  have sum : field pv.areaHeader 0 4 = (lvmCrc (pv.areaHeader.drop 4)).toNat :=
    field_of_slice rfl (UInt32.toNat_lt _)
  have magic : slice pv.areaHeader 4 16 = mdaMagic := rfl
  have off : field pv.areaHeader 40 8 = 512 := field_of_slice rfl (by decide)
  have len : field pv.areaHeader 48 8 = pv.text.length := field_of_slice rfl (by omega)
  have textSum : field pv.areaHeader 56 4 = (lvmCrc pv.text).toNat :=
    field_of_slice rfl (UInt32.toNat_lt _)
  have flags : field pv.areaHeader 60 4 = 0 := field_of_slice rfl (by decide)
  have ring : readRing pv.device.toBlockRead 512 1536 512 pv.text.length = .ok pv.text := by
    unfold readRing
    dsimp only
    rw [Nat.min_eq_right (by omega), readLvm_device (by omega), ok_bind, if_neg (by omega)]
    exact congrArg Except.ok pv.slice_text
  unfold readArea
  rw [refuseIf_of_not (by rw [size_device]; simp only [mdaHeaderSize]; omega), ok_bind,
    readLvm_device (by simp only [mdaHeaderSize]; omega), ok_bind,
    show slice pv.bytes 512 mdaHeaderSize = pv.areaHeader from pv.slice_area,
    refuseIf_of_not (by rw [sum]; simp), ok_bind, refuseIf_of_not (by rw [magic]; simp), ok_bind]
  simp only [off, len, textSum, flags]
  have wanted : ¬ (512 = 0 ∨ pv.text.length = 0 ∨ 0 &&& rawLocnIgnored ≠ 0) := by
    simp [pv.some_text]
  rw [if_neg wanted, refuseIf_of_not (by simp only [maxMetadata, mdaHeaderSize]; omega), ok_bind,
    ring, ok_bind, refuseIf_of_not (by simp), ok_bind]
  rw [List.takeWhile_eq_self_iff.mpr fun byte there => by simpa using pv.no_nul byte there]

section Group

variable {pv : WrittenPv} {vg : VolumeGroup}
  (parsed : (parseMetadata (fromUtf8Lossy pv.text) >>= VolumeGroup.fromMetadata) = .ok vg)

include parsed

/-- The text names the group. -/
theorem readMetadataTextOf_device (device : Nat) :
    readMetadataTextOf pv.device.toBlockRead pv.label device =
      .ok (some (fromUtf8Lossy pv.text)) := by
  have one : NewestText.addArea pv.device.toBlockRead device ⟨none, none⟩ (512, 1536) =
      ⟨some (vg.seqno, fromUtf8Lossy pv.text), none⟩ := by
    unfold NewestText.addArea
    rw [readArea_device]
    simp only [parsed]
    rfl
  unfold readMetadataTextOf
  simp only [label, List.foldl_cons, List.foldl_nil, one]

/-- A group on one device is opened with what the text says. -/
theorem ofDevices_device :
    Mapper.ofDevices [pv.device.toBlockRead] =
      .ok { vg, uuidToDev := [(pv.label.uuid, 0)], devices := [pv.device.toBlockRead] } := by
  have newer : newerGroup none (pv.device.toBlockRead, 0) = .ok (some vg) := by
    obtain ⟨top, text, group⟩ := bind_eq_ok.mp parsed
    unfold newerGroup
    rw [requireLabel_device, ok_bind, readMetadataTextOf_device parsed, ok_bind]
    simp only [text, ok_bind, group]
    rfl
  have best : readVolumeGroup [pv.device.toBlockRead] = .ok vg := by
    unfold readVolumeGroup
    simp only [List.zipIdx_cons, List.zipIdx_nil, List.foldlM_cons, List.foldlM_nil, newer,
      ok_bind, pure_eq_ok, orRefuse]
  have uuids : readUuids [pv.device.toBlockRead] = .ok [(pv.label.uuid, 0)] := by
    unfold readUuids
    simp only [List.zipIdx_cons, List.zipIdx_nil, List.foldlM_cons, List.foldlM_nil,
      requireLabel_device, ok_bind, pure_eq_ok]
  rw [Mapper.ofDevices, best, ok_bind, uuids, ok_bind]

end Group

end WrittenPv

end DiskPartitions
