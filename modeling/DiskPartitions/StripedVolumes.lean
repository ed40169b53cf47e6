import DiskPartitions.VolumeRuns
import DiskPartitions.WrittenLabels
import Mathlib.Algebra.BigOperators.Ring.List

/-!
# Linear and striped logical volumes

A striped segment keeps its bytes on the extents of its physical volumes, one stripe after
another in turn.  Opening the volume checks that every stripe lies on its physical volume and
on the device, so a read of the volume finds each byte where the metadata puts it.
-/

namespace DiskPartitions

open Refusals Slices BufferedReads Tilings

/-! ## Where the metadata puts a byte -/

/-- The stripe that keeps byte `x` of a segment. -/
def Segment.stripeOf (seg : Segment) (x : Nat) : Nat :=
  if seg.stripes.length = 1 then 0 else x / seg.stripeSize % seg.stripes.length

/-- How far into its stripe byte `x` of a segment is. -/
def Segment.stripeOffset (seg : Segment) (x : Nat) : Nat :=
  if seg.stripes.length = 1 then x
  else x / seg.stripeSize / seg.stripes.length * seg.stripeSize + x % seg.stripeSize

/-- The physical volume that keeps byte `x` of a segment, its device, and the byte on it. -/
def Mapper.extentPlace (mapper : Mapper) (seg : Segment) (x : Nat) :
    Option (PhysicalVolume × Nat × Nat) := do
  let st ← seg.stripes[seg.stripeOf x]?
  let pv ← mapper.vg.physicalVolumes.find? fun pv => pv.name = st.pv
  let dev ← mapper.deviceOf pv.uuid
  some (pv, dev, pv.peStart + st.startExtent * mapper.vg.extentSize + seg.stripeOffset x)

/-- The byte the metadata says byte `x` of a segment is. -/
def Mapper.extentByte (mapper : Mapper) (disks : List (List UInt8)) (seg : Segment) (x : Nat) :
    UInt8 :=
  match mapper.extentPlace seg x with
  | some (_, dev, place) => (disks.getD dev []).getD place default
  | none => default

/-! ## Stripes -/

/-- Byte `x` of the run is within its stripe, whatever the stripe. -/
theorem stripe_offset_lt {n t perStripe x : Nat} (divides : perStripe % t = 0)
    (inside : x < n * perStripe) : x / t / n * t + x % t < perStripe := by
  obtain ⟨rows, rfl⟩ := Nat.dvd_of_mod_eq_zero divides
  have sized : 0 < t := by
    by_contra empty
    obtain rfl : t = 0 := by omega
    simp at inside
  have row : x / t / n < rows := by
    rw [Nat.div_div_eq_div_mul, Nat.div_lt_iff_lt_mul (Nat.mul_pos sized ?_)]
    · calc x < n * (t * rows) := inside
        _ = rows * (t * n) := by ring
    · by_contra none
      obtain rfl : n = 0 := by omega
      simp at inside
  calc x / t / n * t + x % t < x / t / n * t + t := Nat.add_lt_add_left (Nat.mod_lt x sized) _
    _ = (x / t / n + 1) * t := by ring
    _ ≤ rows * t := Nat.mul_le_mul_right t row
    _ = t * rows := Nat.mul_comm rows t

/-- A stripe the volume was opened with: its physical volume and device are known, and its
extents are on both. -/
structure Mapper.OnDevice (mapper : Mapper) (perStripe : Nat) (st : Stripe) (pv : PhysicalVolume)
    (dev off : Nat) (device : BlockRead) : Prop where
  named : mapper.vg.physicalVolumes.find? (fun pv => pv.name = st.pv) = some pv
  given : mapper.deviceOf pv.uuid = some dev
  extents : st.startExtent + perStripe ≤ pv.peCount
  start : off = pv.peStart + st.startExtent * mapper.vg.extentSize
  listed : mapper.devices[dev]? = some device
  fits : off + perStripe * mapper.vg.extentSize ≤ device.sizeBytes.toNat

namespace Mapper

variable {mapper : Mapper} {name : String} {seg : Segment}

/-- What opening checks of a stripe. -/
theorem onDevice_of_stripeStart {perStripe : Nat} {st : Stripe} {dev off : Nat}
    (known : ∀ uuid dev, mapper.deviceOf uuid = some dev → dev < mapper.devices.length)
    (started : mapper.stripeStart name perStripe st = .ok (dev, off)) :
    ∃ pv device, mapper.OnDevice perStripe st pv dev off device := by
  unfold stripeStart at started
  obtain ⟨pv, found, started⟩ := bind_eq_ok.mp started
  obtain ⟨there, placed, started⟩ := bind_eq_ok.mp started
  obtain ⟨extents, started⟩ := refuseIf_bind_eq_ok.mp started
  obtain ⟨-, started⟩ := refuseIf_bind_eq_ok.mp started
  obtain ⟨fits, started⟩ := refuseIf_bind_eq_ok.mp started
  cases started
  rw [orRefuse_eq_ok] at found placed
  have device := List.getElem?_eq_getElem (known pv.uuid dev placed)
  rw [device] at fits
  simp only [Option.map_some, Option.getD_some] at fits
  exact ⟨pv, _, found, placed, by omega, Nat.add_comm _ _, device, by omega⟩

/-- What opening checks of a striped segment. -/
theorem striped_eq_ok {V : Type} {map : RunMap V} (opened : mapper.striped name seg = .ok map) :
    ∃ stripes, map = .striped seg.stripeSize stripes ∧ 0 < seg.stripes.length ∧
      seg.extentCount % seg.stripes.length = 0 ∧
      List.Forall₂ (fun st start => mapper.stripeStart name
        (seg.extentCount / seg.stripes.length) st = .ok start) seg.stripes stripes ∧
      (1 < seg.stripes.length →
        seg.extentCount / seg.stripes.length * mapper.vg.extentSize % seg.stripeSize = 0) := by
  unfold striped at opened
  obtain ⟨counted, opened⟩ := refuseIf_bind_eq_ok.mp opened
  obtain ⟨stripes, starts, opened⟩ := bind_eq_ok.mp opened
  obtain ⟨divides, opened⟩ := refuseIf_bind_eq_ok.mp opened
  cases opened
  refine ⟨stripes, rfl, by omega, by omega, mapM_eq_ok starts, fun several => ?_⟩
  by_contra rest
  exact divides ⟨several, rest⟩

/-- A striped segment as opening found it, with the bytes it starts at on the devices. -/
structure StripedAs (mapper : Mapper) (seg : Segment) (stripes : List (Nat × Nat)) : Prop where
  some_stripe : 0 < seg.stripes.length
  whole : seg.extentCount % seg.stripes.length = 0
  divides : 1 < seg.stripes.length →
    seg.extentCount / seg.stripes.length * mapper.vg.extentSize % seg.stripeSize = 0
  same_length : seg.stripes.length = stripes.length
  each : ∀ index < seg.stripes.length, ∃ st dev off pv device,
    seg.stripes[index]? = some st ∧ stripes[index]? = some (dev, off) ∧
      mapper.OnDevice (seg.extentCount / seg.stripes.length) st pv dev off device

theorem stripedAs_of_ok {V : Type} {map : RunMap V}
    (known : ∀ uuid dev, mapper.deviceOf uuid = some dev → dev < mapper.devices.length)
    (opened : mapper.striped name seg = .ok map) :
    ∃ stripes, map = .striped seg.stripeSize stripes ∧ mapper.StripedAs seg stripes := by
  obtain ⟨stripes, rfl, some_stripe, whole, starts, divides⟩ := striped_eq_ok opened
  refine ⟨stripes, rfl, some_stripe, whole, divides, starts.length_eq, fun index inside => ?_⟩
  have bound : index < stripes.length := starts.length_eq ▸ inside
  have started := starts.get inside bound
  obtain ⟨pv, device, placed⟩ := onDevice_of_stripeStart known started
  exact ⟨seg.stripes[index], stripes[index].1, stripes[index].2, pv, device,
    List.getElem?_eq_getElem inside, List.getElem?_eq_getElem bound, placed⟩

namespace StripedAs

variable {stripes : List (Nat × Nat)} (as : mapper.StripedAs seg stripes)

include as

theorem len_eq : seg.extentCount * mapper.vg.extentSize =
    seg.stripes.length * (seg.extentCount / seg.stripes.length * mapper.vg.extentSize) := by
  rw [← Nat.mul_assoc, Nat.mul_div_cancel' (Nat.dvd_of_mod_eq_zero as.whole)]

theorem stripeOf_lt (x : Nat) : seg.stripeOf x < seg.stripes.length := by
  unfold Segment.stripeOf
  split
  · exact as.some_stripe
  · exact Nat.mod_lt _ as.some_stripe

theorem stripeOffset_lt {x : Nat} (inside : x < seg.extentCount * mapper.vg.extentSize) :
    seg.stripeOffset x < seg.extentCount / seg.stripes.length * mapper.vg.extentSize := by
  rw [as.len_eq] at inside
  unfold Segment.stripeOffset
  split
  next single =>
    rw [single, Nat.one_mul] at inside
    rwa [single]
  next several =>
    have some_stripe := as.some_stripe
    exact stripe_offset_lt (as.divides (by omega)) inside

/-- Every byte of the segment has its place, on the extents of its physical volume and on the
device. -/
theorem exists_place {x : Nat} (inside : x < seg.extentCount * mapper.vg.extentSize) :
    ∃ st dev off pv device, stripes[seg.stripeOf x]? = some (dev, off) ∧
      mapper.OnDevice (seg.extentCount / seg.stripes.length) st pv dev off device ∧
      mapper.extentPlace seg x = some (pv, dev, off + seg.stripeOffset x) ∧
      off + seg.stripeOffset x < pv.peStart + pv.peCount * mapper.vg.extentSize ∧
      off + seg.stripeOffset x < device.sizeBytes.toNat := by
  obtain ⟨st, dev, off, pv, device, listed, started, placed⟩ := as.each _ (as.stripeOf_lt x)
  have within := as.stripeOffset_lt inside
  have fits := placed.fits
  have extents := Nat.mul_le_mul_right mapper.vg.extentSize placed.extents
  rw [Nat.add_mul] at extents
  have start := placed.start
  refine ⟨st, dev, off, pv, device, started, placed, ?_, by omega, by omega⟩
  simp only [extentPlace, listed, placed.named, placed.given, Option.bind_eq_bind, Option.bind_some,
    start]

/-- A read in a stripe is one read of a device, up to where the stripe ends. -/
theorem exists_readDevice {within want : Nat} (some_want : 0 < want) :
    ∃ taken, 0 < taken ∧ taken ≤ want ∧
      (∀ j < taken, seg.stripeOf (within + j) = seg.stripeOf within ∧
        seg.stripeOffset (within + j) = seg.stripeOffset within + j) ∧
      ∀ dev off, stripes[seg.stripeOf within]? = some (dev, off) →
        readStriped mapper.devices seg.stripeSize stripes within want =
          readDevice mapper.devices dev (off + seg.stripeOffset within) taken := by
  by_cases single : seg.stripes.length = 1
  · refine ⟨want, some_want, Nat.le_refl want, fun j _ => ?_, fun dev off started => ?_⟩
    · simp [Segment.stripeOf, Segment.stripeOffset, single]
    · unfold Segment.stripeOf at started
      unfold readStriped Segment.stripeOffset
      rw [if_pos single] at started
      rw [if_pos (as.same_length ▸ single), if_pos single, List.getD_eq_getElem?_getD, started]
      rfl
  · have several := as.some_stripe
    have sized := seg.sized (by omega)
    have short := Nat.mod_lt within sized
    refine ⟨min (seg.stripeSize - within % seg.stripeSize) want, by omega, Nat.min_le_right _ _,
      fun j jTaken => ?_, fun dev off started => ?_⟩
    · have inner : within % seg.stripeSize + j < seg.stripeSize := by omega
      have quotient : (within + j) / seg.stripeSize = within / seg.stripeSize := by
        conv_lhs => rw [← Nat.div_add_mod within seg.stripeSize, Nat.add_assoc]
        rw [Nat.mul_add_div sized, Nat.div_eq_of_lt inner, Nat.add_zero]
      have remainder : (within + j) % seg.stripeSize = within % seg.stripeSize + j := by
        conv_lhs => rw [← Nat.div_add_mod within seg.stripeSize, Nat.add_assoc]
        rw [Nat.mul_add_mod, Nat.mod_eq_of_lt inner]
      simp only [Segment.stripeOf, Segment.stripeOffset, if_neg single, quotient, remainder,
        Nat.add_assoc, and_self]
    · unfold Segment.stripeOf at started
      unfold readStriped Segment.stripeOffset
      rw [if_neg single, as.same_length] at started
      rw [if_neg (as.same_length ▸ single), if_neg single, as.same_length]
      simp only [List.getD_eq_getElem?_getD, started, Option.getD_some, Nat.add_assoc]

/-- Stripes are read where the metadata puts them. -/
theorem readStriped_content {disks : List (List UInt8)}
    (held : List.Forall₂ BlockRead.Holds mapper.devices disks) {within want : Nat}
    (some_want : 0 < want)
    (inside : within + want ≤ seg.extentCount * mapper.vg.extentSize) :
    ∃ taken, 0 < taken ∧ taken ≤ want ∧
      readStriped mapper.devices seg.stripeSize stripes within want =
        .ok (buffer taken fun j => mapper.extentByte disks seg (within + j)) := by
  obtain ⟨taken, positive, bounded, steps, reads⟩ := @exists_readDevice _ _ _ as within _ some_want
  obtain ⟨st, dev, off, pv, device, started, placed, -, -, -⟩ :=
    as.exists_place (by omega : within < _)
  obtain ⟨bytes, disk, holds⟩ : ∃ bytes, disks[dev]? = some bytes ∧ device.Holds bytes := by
    obtain ⟨bound, rfl⟩ := List.getElem?_eq_some_iff.mp placed.listed
    have other : dev < disks.length := held.length_eq ▸ bound
    exact ⟨disks[dev], List.getElem?_eq_getElem other, held.get bound other⟩
  -- the last byte that is read is still in the stripe
  have fits : off + seg.stripeOffset within + taken ≤ bytes.length := by
    have last := as.stripeOffset_lt (by omega : within + (taken - 1) < _)
    rw [(steps (taken - 1) (by omega)).2] at last
    have room := placed.fits
    rw [holds.size] at room
    omega
  refine ⟨taken, positive, bounded, ?_⟩
  rw [reads dev off started, readDevice, placed.listed]
  simp only [holds.reads _ _ fits]
  rw [slice_eq_buffer fits]
  refine congrArg Except.ok (buffer_congr fun j jTaken => ?_)
  obtain ⟨_, _, _, _, _, started', -, place, -, -⟩ :=
    as.exists_place (by omega : within + j < _)
  rw [(steps j jTaken).1, started] at started'
  cases started'
  rw [Mapper.extentByte, place, (steps j jTaken).2]
  simp only [List.getD_eq_getElem?_getD, disk, Option.getD_some, Nat.add_assoc]

end StripedAs

end Mapper

/-! ## Opening -/

/-- The labels name devices that were given. -/
theorem uuids_lt {devices : List BlockRead} {uuids : List (String × Nat)}
    (labelled : readUuids devices = .ok uuids) : ∀ entry ∈ uuids, entry.2 < devices.length := by
  refine @foldlM_invariant _ _ _ _ (fun known => ∀ entry ∈ known, entry.2 < devices.length) _ ?_
    _ _ (by simp) labelled
  intro dev given known next bounded stepped
  obtain ⟨label, -, stepped⟩ := bind_eq_ok.mp stepped
  cases stepped
  intro entry there
  rcases List.mem_cons.mp there with rfl | before
  · have bound := (List.mem_zipIdx given).2.1
    simpa using bound
  · exact bounded entry before

theorem Mapper.deviceOf_lt {devices : List BlockRead} {mapper : Mapper}
    (found : Mapper.ofDevices devices = .ok mapper) {uuid : String} {dev : Nat}
    (given : mapper.deviceOf uuid = some dev) : dev < mapper.devices.length := by
  unfold ofDevices at found
  obtain ⟨vg, -, found⟩ := bind_eq_ok.mp found
  obtain ⟨uuids, labelled, found⟩ := bind_eq_ok.mp found
  cases found
  obtain ⟨entry, there, rfl⟩ := Option.map_eq_some_iff.mp given
  exact uuids_lt labelled entry (List.mem_of_find?_eq_some there)

/-- A segment as a part of its volume, its bytes where the metadata puts them. -/
def Mapper.segmentTile (mapper : Mapper) (disks : List (List UInt8)) (seg : Segment) :
    Tile UInt8 where
  start := seg.startExtent * mapper.vg.extentSize
  len := seg.extentCount * mapper.vg.extentSize
  place := mapper.extentByte disks seg

/-- The byte at a position, in the segment that has it. -/
def Mapper.volumeByte (mapper : Mapper) (disks : List (List UInt8)) (segs : List Segment)
    (pos : Nat) : UInt8 :=
  (locate (segs.map (mapper.segmentTile disks)) pos).getD default

namespace Mapper

section StripedVolume

variable {mapper : Mapper} {name : String} {levels : Nat}
  {runs : List (Run (Volume levels))} {size : Nat} {info : LogicalVolumeInfo}
  (known : ∀ uuid dev, mapper.deviceOf uuid = some dev → dev < mapper.devices.length)
  (mapped : mapper.map (levels + 1) name = .ok (runs, size))
  (named : mapper.lv name = .ok info) (striped : ∀ seg ∈ info.segments, seg.kind = "striped")
  (exact : extents info.segments * mapper.vg.extentSize < 2 ^ 64)

include known mapped named striped exact

/-- Striped segments make striped runs that follow one another. -/
theorem striped_runs :
    size = extents info.segments * mapper.vg.extentSize ∧
      Tiles (runs.map Run.tile) 0 size ∧
      List.Forall₂ (fun seg run => run.start = seg.startExtent * mapper.vg.extentSize ∧
        run.len = seg.extentCount * mapper.vg.extentSize ∧
        ∃ stripes, run.map = .striped seg.stripeSize stripes ∧ mapper.StripedAs seg stripes)
        info.segments runs := by
  obtain ⟨same, last, named', segments, size_eq⟩ := map_eq_ok mapped
  rw [named] at named'
  cases named'
  obtain ⟨rfl, tiles, resolved⟩ := tiles_of_mapSegments segments (by simpa using exact)
  rw [Nat.zero_add] at size_eq tiles
  rw [Nat.mod_eq_of_lt exact] at size_eq
  rw [← size_eq, Nat.zero_mul] at tiles
  refine ⟨size_eq, tiles, ?_⟩
  refine ((List.forall₂_and_left _ _).mpr ⟨striped, resolved⟩).imp ?_
  rintro seg run ⟨kind, start, resolves⟩
  have map := resolves.map
  rw [mapSegment, if_pos kind] at map
  exact ⟨start, resolves.len, stripedAs_of_ok known map⟩

/-- The segments cover the volume in the same way. -/
theorem striped_segments (disks : List (List UInt8)) :
    Tiles (info.segments.map (mapper.segmentTile disks)) 0 size := by
  obtain ⟨-, tiles, resolved⟩ := striped_runs known mapped named striped exact
  refine tiles.of_same_bounds ?_
  rw [List.forall₂_map_left_iff, List.forall₂_map_right_iff]
  refine List.Forall₂.flip (resolved.imp ?_)
  rintro seg run ⟨start, len, -⟩
  exact ⟨start.symm, len.symm⟩

/-- A volume of striped segments reads where the metadata puts its bytes. -/
theorem readVolume_striped {disks : List (List UInt8)}
    (held : List.Forall₂ BlockRead.Holds mapper.devices disks) {offset len : Nat}
    (inside : offset + len ≤ size) :
    readVolume mapper.devices (levels + 1) runs offset len =
      .ok (buffer len fun j => mapper.volumeByte disks info.segments (offset + j)) := by
  obtain ⟨size_eq, tiles, resolved⟩ := striped_runs known mapped named striped exact
  refine readRuns_content tiles (by omega) ?_ inside
  intro run there within want some_want fits
  obtain ⟨seg, listed, start, len_eq, stripes, map, as⟩ := exists_of_mem_right resolved there
  rw [len_eq] at fits
  obtain ⟨taken, positive, bounded, reads⟩ := as.readStriped_content held some_want fits
  refine ⟨taken, positive, bounded, ?_⟩
  rw [map, readMap, reads]
  refine congrArg Except.ok (buffer_congr fun j jTaken => ?_)
  have located := (striped_segments known mapped named striped exact disks).locate_of_mem
    (List.mem_map_of_mem listed)
    (show within + j < seg.extentCount * mapper.vg.extentSize by omega)
  rw [volumeByte, start]
  exact (congrArg (Option.getD · default) located).symm

end StripedVolume

end Mapper

/-- A volume of striped segments: its size is that of its segments, which cover it, every byte
of a segment has a place on the extents of its physical volume and on the device, and a read
returns the bytes at those places. -/
theorem striped_volume_reads {devices : List BlockRead} {name : String} {volume : LogicalVolume}
    {mapper : Mapper} (opened : LogicalVolume.openVolume devices name = .ok volume)
    (found : Mapper.ofDevices devices = .ok mapper)
    (striped : ∀ seg ∈ volume.info.segments, seg.kind = "striped")
    (exact : Mapper.extents volume.info.segments * mapper.vg.extentSize < 2 ^ 64) :
    volume.size = (volume.info.segments.map fun seg =>
        seg.extentCount * mapper.vg.extentSize).sum ∧
      (∀ pos < volume.size, ∃ seg ∈ volume.info.segments,
        ∃ x < seg.extentCount * mapper.vg.extentSize,
          pos = seg.startExtent * mapper.vg.extentSize + x) ∧
      (∀ seg ∈ volume.info.segments, ∀ x < seg.extentCount * mapper.vg.extentSize,
        ∃ pv dev place device, mapper.extentPlace seg x = some (pv, dev, place) ∧
          pv.peStart ≤ place ∧ place < pv.peStart + pv.peCount * mapper.vg.extentSize ∧
          devices[dev]? = some device ∧ place < device.sizeBytes.toNat) ∧
      ∀ disks, List.Forall₂ BlockRead.Holds devices disks →
        ∀ offset len, offset + len ≤ volume.size →
          ∃ bytes, volume.readAt offset len = .ok bytes ∧ bytes.length = len ∧
            ∀ seg ∈ volume.info.segments, ∀ x < seg.extentCount * mapper.vg.extentSize,
              ∀ j < len, offset + j = seg.startExtent * mapper.vg.extentSize + x →
                bytes[j]? = some (mapper.extentByte disks seg x) := by
  obtain ⟨sameDevices, other, again, ofDevices, named, mapped⟩ :=
    LogicalVolume.openVolume_eq_ok opened
  rw [found] at again
  cases again
  have known : ∀ uuid dev, mapper.deviceOf uuid = some dev → dev < mapper.devices.length :=
    fun _ _ => Mapper.deviceOf_lt found
  obtain ⟨size_eq, -, resolved⟩ := Mapper.striped_runs known mapped named striped exact
  have covered := Mapper.striped_segments known mapped named striped exact
  refine ⟨?_, fun pos inside => ?_, fun seg there x inside => ?_, fun disks held offset len fits => ?_⟩
  · rw [size_eq, Mapper.extents, List.sum_map_mul_right]
  · obtain ⟨tile, member, distance, short, rfl⟩ :=
      (covered []).exists_distance (Nat.zero_le pos) inside
    obtain ⟨seg, there, rfl⟩ := List.mem_map.mp member
    exact ⟨seg, there, distance, short, rfl⟩
  · obtain ⟨run, -, -, -, stripes, -, as⟩ := exists_of_mem_left resolved there
    obtain ⟨st, dev, off, pv, device, -, placed, place, onPv, onDevice⟩ := as.exists_place inside
    have start := placed.start
    exact ⟨pv, dev, _, device, place, by omega, onPv, ofDevices ▸ placed.listed, onDevice⟩
  · have reads := Mapper.readVolume_striped known mapped named striped exact (ofDevices ▸ held) fits
    refine ⟨buffer len fun j => mapper.volumeByte disks volume.info.segments (offset + j), ?_,
      length_buffer len _, fun seg there x inside j jTaken place => ?_⟩
    · rw [LogicalVolume.readAt, if_neg (by omega), sameDevices, ← ofDevices]
      exact reads
    · have located := (covered disks).locate_of_mem (List.mem_map_of_mem there) inside
      rw [getElem?_buffer _ jTaken, place, Mapper.volumeByte]
      exact congrArg (fun found => some (Option.getD found default)) located

/-! ## A volume of two segments -/

/-- Eight extents of 512 bytes, each holding its own number throughout. -/
def numberedExtents : List UInt8 := buffer 4096 fun place => UInt8.ofNat (place / 512)

theorem length_numberedExtents : numberedExtents.length = 4096 := by
  rw [numberedExtents, length_buffer]

/-- A linear segment after a striped one, listed before it. -/
def twoSegments : WrittenPv where
  letter := 0x61
  text := textOf [
    "vg \x7b", "id = \"vg\"", "seqno = 1", "extent_size = 1",
    "physical_volumes \x7b",
    "pv0 \x7b", "id = \"aaaaaaaa-aaaaaaaa-aaaaaaaa-aaaaaaaa\"", "pe_start = 4", "pe_count = 8", "\x7d",
    "\x7d",
    "logical_volumes \x7b",
    "lv \x7b", "id = \"lv\"",
    "segment2 \x7b", "start_extent = 2", "extent_count = 1", "type = \"striped\"",
    "stripe_count = 1", "stripes = [\"pv0\", 7]", "\x7d",
    "segment1 \x7b", "start_extent = 0", "extent_count = 2", "type = \"striped\"",
    "stripe_count = 2", "stripe_size = 1", "stripes = [\"pv0\", 5, \"pv0\", 3]", "\x7d",
    "\x7d", "\x7d", "\x7d"]
  data := numberedExtents
  some_text := by decide +kernel
  text_le := by decide +kernel
  no_nul := by decide +kernel
  data_lt := by
    rw [length_numberedExtents]
    decide

def stripedSegment : Segment :=
  ⟨0, 2, "striped", 512, [⟨"pv0", 5⟩, ⟨"pv0", 3⟩], [], [], none, none, none, by decide⟩

def linearSegment : Segment :=
  ⟨2, 1, "striped", 0, [⟨"pv0", 7⟩], [], [], none, none, none, by decide⟩

def onlyPv : PhysicalVolume := ⟨"pv0", "aaaaaaaaaaaaaaaaaaaaaaaaaaaaaaaa", 2048, 8⟩

def twoSegmentsInfo : LogicalVolumeInfo := ⟨"lv", "lv", [stripedSegment, linearSegment]⟩

def twoSegmentsMapper : Mapper where
  vg := {
    name := "vg"
    id := "vg"
    seqno := 1
    extentSize := 512
    physicalVolumes := [onlyPv]
    logicalVolumes := [twoSegmentsInfo]
    extentSize_pos := oneSector_pos }
  uuidToDev := [(twoSegments.label.uuid, 0)]
  devices := [twoSegments.device.toBlockRead]

theorem ofDevices_twoSegments :
    Mapper.ofDevices [twoSegments.device.toBlockRead] = .ok twoSegmentsMapper := by
  have parsed : (parseMetadata (Utf8.fromUtf8Lossy twoSegments.text) >>=
      VolumeGroup.fromMetadata) = .ok twoSegmentsMapper.vg := by
    rw [parseMetadata_ascii (by decide +kernel)]
    decide +kernel
  exact WrittenPv.ofDevices_device parsed

theorem openVolume_twoSegments :
    ∃ volume, LogicalVolume.openVolume [twoSegments.device.toBlockRead] "lv" = .ok volume ∧
      volume.info = twoSegmentsInfo := by
  have named : twoSegmentsMapper.lv "lv" = .ok twoSegmentsInfo := by decide +kernel
  have mapped : (twoSegmentsMapper.map 3 "lv").isOk = true := by decide +kernel
  cases result : twoSegmentsMapper.map 3 "lv" with
  | error error =>
      rw [result] at mapped
      cases mapped
  | ok found =>
      exact ⟨_, openVolume_of_map ofDevices_twoSegments named result, rfl⟩

/-- Every extent holds its own number throughout. -/
theorem extentByte_twoSegments {seg : Segment} {x : Nat} (place : Nat)
    (found : twoSegmentsMapper.extentPlace seg x = some (onlyPv, 0, 2048 + place))
    (inside : place < 4096) :
    twoSegmentsMapper.extentByte [twoSegments.bytes] seg x = UInt8.ofNat (place / 512) := by
  have data : twoSegments.data = numberedExtents := by simp only [twoSegments]
  rw [Mapper.extentByte, found]
  dsimp only
  rw [List.getD_cons_zero, WrittenPv.getD_bytes, List.getD_eq_getElem?_getD, data, numberedExtents,
    getElem?_buffer _ inside, Option.getD_some]

/-- A read over the end of a stripe and of a segment. -/
theorem readAt_twoSegments :
    ∃ volume bytes, LogicalVolume.openVolume [twoSegments.device.toBlockRead] "lv" = .ok volume ∧
      volume.size = 1536 ∧ volume.readAt 510 516 = .ok bytes ∧
      bytes[1]? = some 5 ∧ bytes[2]? = some 3 ∧ bytes[514]? = some 7 := by
  obtain ⟨volume, opened, info⟩ := openVolume_twoSegments
  obtain ⟨size, -, -, reads⟩ := striped_volume_reads opened ofDevices_twoSegments
    (by rw [info]; decide) (by rw [info]; decide)
  rw [info] at size reads
  replace size : volume.size = 1536 := size
  obtain ⟨bytes, read, -, at_segment⟩ := reads [twoSegments.bytes]
    (.cons twoSegments.device.holds .nil) 510 516 (by omega)
  have first := at_segment stripedSegment (by decide +kernel) 511 (by decide) 1 (by decide) rfl
  have second := at_segment stripedSegment (by decide +kernel) 512 (by decide) 2 (by decide) rfl
  have third := at_segment linearSegment (by decide +kernel) 0 (by decide) 514 (by decide) rfl
  rw [extentByte_twoSegments 3071 (by decide +kernel) (by decide)] at first
  rw [extentByte_twoSegments 1536 (by decide +kernel) (by decide)] at second
  rw [extentByte_twoSegments 3584 (by decide +kernel) (by decide)] at third
  exact ⟨volume, bytes, opened, size, read, first, second, third⟩

end DiskPartitions
