import DiskPartitions.ReorderedScans
import DiskPartitions.ResolvedVolumes
import DiskPartitions.StripedVolumes

/-!
# Opening a volume over devices in another order

The newest metadata and the device of every physical volume do not depend on the order the
devices are given in, unless several carry one UUID: then the last of them is read.  So a
volume opens and reads alike in every order where the devices that carry the UUID of a
physical volume it touches are one and the same.
-/

namespace DiskPartitions

open Refusals KeyedGroups Slices

/-! ## The newest metadata -/

/-- Keep the metadata met first unless the next is newer. -/
def keepNewer (best : Option VolumeGroup) (vg : VolumeGroup) : Option VolumeGroup :=
  if best.all fun b => decide (b.seqno < vg.seqno) then some vg else best

/-- A device adds the metadata it keeps, and must be a physical volume that can be read. -/
theorem newerGroup_eq_ok {best next : Option VolumeGroup} {dev : BlockRead × Nat} :
    newerGroup best dev = .ok next ↔
      ∃ pv, pvOf id dev = some pv ∧ next = pv.2.elim best (keepNewer best) := by
  unfold newerGroup pvOf requireLabel readGroupOf
  dsimp only [id]
  rcases readPvLabelOf dev.1 dev.2 with error | _ | label
  · simp [error_bind]
  · simp [ok_bind, orRefuse, error_bind]
  · simp only [ok_bind, orRefuse]
    rcases readMetadataTextOf dev.1 label dev.2 with error | _ | text
    · simp [error_bind]
    · constructor
      · rintro ⟨⟩
        exact ⟨_, rfl, rfl⟩
      · rintro ⟨_, ⟨⟩, rfl⟩
        rfl
    · simp only [ok_bind]
      rcases parseMetadata text with error | top
      · simp [error_bind]
      · simp only [ok_bind]
        rcases VolumeGroup.fromMetadata top with error | vg
        · simp [error_bind]
        · constructor
          · rintro ⟨⟩
            exact ⟨_, rfl, rfl⟩
          · rintro ⟨_, ⟨⟩, rfl⟩
            rfl

theorem foldlM_newerGroup {devices : List (BlockRead × Nat)} {best last : Option VolumeGroup} :
    devices.foldlM newerGroup best = .ok last ↔
      (∀ dev ∈ devices, ∃ pv, pvOf id dev = some pv) ∧
        last = ((devices.filterMap (pvOf id)).filterMap Prod.snd).foldl keepNewer best := by
  induction devices generalizing best with
  | nil =>
      rw [List.foldlM_nil, pure_eq_ok]
      simp [eq_comm]
  | cons dev devices ih =>
      rw [List.foldlM_cons, bind_eq_ok, List.forall_mem_cons]
      constructor
      · rintro ⟨next, first, rest⟩
        obtain ⟨pv, found, rfl⟩ := newerGroup_eq_ok.mp first
        obtain ⟨each, rfl⟩ := ih.mp rest
        refine ⟨⟨⟨pv, found⟩, each⟩, ?_⟩
        rw [List.filterMap_cons_some found]
        obtain ⟨_, _ | vg⟩ := pv
        · rfl
        · rfl
      · rintro ⟨⟨⟨pv, found⟩, each⟩, rfl⟩
        refine ⟨_, newerGroup_eq_ok.mpr ⟨pv, found, rfl⟩, ih.mpr ⟨each, ?_⟩⟩
        rw [List.filterMap_cons_some found]
        obtain ⟨_, _ | vg⟩ := pv
        · rfl
        · rfl

theorem foldl_keepNewer (first : VolumeGroup) (rest : List VolumeGroup) :
    rest.foldl keepNewer (some first) = some (rest.foldl (newer VolumeGroup.seqno) first) := by
  induction rest generalizing first with
  | nil => rfl
  | cons vg rest ih =>
      rw [List.foldl_cons, List.foldl_cons, ← ih]
      congr 1
      simp only [keepNewer, newer, Option.all_some, decide_eq_true_eq]
      split
      next => rfl
      next => rfl

/-- The group is the first of the newest metadata, and every device is a physical volume
that can be read. -/
theorem readVolumeGroup_eq_ok {devices : List BlockRead} {vg : VolumeGroup} :
    readVolumeGroup devices = .ok vg ↔
      (∀ dev ∈ devices, ∃ pv, pvOf id (dev, 0) = some pv) ∧
        FirstHighest VolumeGroup.seqno (metadataCopies id devices) vg := by
  have places : (∀ dev ∈ devices.zipIdx, ∃ pv, pvOf id dev = some pv) ↔
      ∀ dev ∈ devices, ∃ pv, pvOf id (dev, 0) = some pv := by
    constructor
    · intro each dev given
      have listed : dev ∈ devices.zipIdx.map Prod.fst := by rwa [List.zipIdx_map_fst]
      obtain ⟨⟨_, place⟩, member, rfl⟩ := List.mem_map.mp listed
      rw [pvOf_place _ 0 place]
      exact each _ member
    · rintro each ⟨dev, place⟩ member
      rw [pvOf_place _ place 0]
      refine each dev ?_
      have listed : dev ∈ devices.zipIdx.map Prod.fst := List.mem_map_of_mem member
      rwa [List.zipIdx_map_fst] at listed
  have kept : ∀ last, ((devices.zipIdx.filterMap (pvOf id)).filterMap Prod.snd).foldl keepNewer
      none = some last ↔ FirstHighest VolumeGroup.seqno (metadataCopies id devices) last := by
    intro last
    change (metadataCopies id devices).foldl keepNewer none = some last ↔ _
    cases metadataCopies id devices with
    | nil =>
        constructor
        · intro found
          cases found
        · intro best
          cases best.mem
    | cons first rest =>
        have step : keepNewer none first = some first := rfl
        rw [List.foldl_cons, step, foldl_keepNewer]
        constructor
        · rintro ⟨⟩
          exact firstHighest_foldl first rest
        · intro best
          exact congrArg some ((firstHighest_foldl first rest).unique best)
  unfold readVolumeGroup
  rw [bind_eq_ok]
  constructor
  · rintro ⟨best, found, present⟩
    obtain ⟨each, rfl⟩ := foldlM_newerGroup.mp found
    exact ⟨places.mp each, (kept vg).mp (orRefuse_eq_ok.mp present)⟩
  · rintro ⟨each, best⟩
    exact ⟨_, foldlM_newerGroup.mpr ⟨places.mpr each, rfl⟩,
      orRefuse_eq_ok.mpr ((kept vg).mpr best)⟩

/-! ## The device of each physical volume -/

/-- The UUID of a device's label. -/
def labelUuid (dev : BlockRead) : Option String :=
  match readPvLabelOf dev 0 with
  | .ok (some label) => some label.uuid
  | _ => none

theorem labelUuid_eq_some {dev : BlockRead} {uuid : String} (place : Nat) :
    labelUuid dev = some uuid ↔ ∃ label, requireLabel dev place = .ok label ∧ label.uuid = uuid := by
  unfold labelUuid requireLabel
  rcases (alike_readPvLabelOf dev 0 place).cases with ⟨label, here, there⟩ | ⟨_, _, here, there⟩
  · rw [here, there, ok_bind]
    cases label with
    | none => simp [orRefuse]
    | some label => simp [orRefuse]
  · rw [here, there, error_bind]
    simp

/-- A device's UUID with its place. -/
def labelEntry (dev : BlockRead × Nat) : Option (String × Nat) :=
  (labelUuid dev.1).map fun uuid => (uuid, dev.2)

/-- The UUIDs of devices by their places, the last device first. -/
def knownUuids (devices : List (BlockRead × Nat)) : List (String × Nat) :=
  (devices.filterMap labelEntry).reverse

theorem readUuids_eq_ok {devices : List BlockRead} {known : List (String × Nat)} :
    readUuids devices = .ok known ↔
      (∀ dev ∈ devices.zipIdx, ∃ uuid, labelUuid dev.1 = some uuid) ∧
        known = knownUuids devices.zipIdx := by
  unfold readUuids knownUuids
  suffices general : ∀ (given : List (BlockRead × Nat)) (before : List (String × Nat)),
      given.foldlM (fun known dev => do
        let label ← requireLabel dev.1 dev.2
        (.ok ((label.uuid, dev.2) :: known) : Except LvmError _)) before = .ok known ↔
          (∀ dev ∈ given, ∃ uuid, labelUuid dev.1 = some uuid) ∧
            known = (given.filterMap labelEntry).reverse ++ before by
    have whole := general devices.zipIdx []
    rwa [List.append_nil] at whole
  intro given
  induction given with
  | nil =>
      intro before
      rw [List.foldlM_nil, pure_eq_ok]
      constructor
      · rintro ⟨⟩
        exact ⟨by simp, rfl⟩
      · rintro ⟨_, rfl⟩
        rfl
  | cons dev given ih =>
      intro before
      rw [List.foldlM_cons, bind_eq_ok, List.forall_mem_cons]
      constructor
      · rintro ⟨next, first, rest⟩
        obtain ⟨label, read, first⟩ := bind_eq_ok.mp first
        cases first
        have here : labelUuid dev.1 = some label.uuid :=
          (labelUuid_eq_some dev.2).mpr ⟨label, read, rfl⟩
        obtain ⟨each, rfl⟩ := (ih _).mp rest
        refine ⟨⟨⟨_, here⟩, each⟩, ?_⟩
        have picked : labelEntry dev = some (label.uuid, dev.2) := by
          rw [labelEntry, here, Option.map_some]
        rw [List.filterMap_cons_some picked, List.reverse_cons, List.append_assoc]
        rfl
      · rintro ⟨⟨⟨uuid, here⟩, each⟩, rfl⟩
        obtain ⟨label, read, rfl⟩ := (labelUuid_eq_some dev.2).mp here
        refine ⟨(label.uuid, dev.2) :: before, by rw [read, ok_bind], (ih _).mpr ⟨each, ?_⟩⟩
        have picked : labelEntry dev = some (label.uuid, dev.2) := by
          rw [labelEntry, here, Option.map_some]
        rw [List.filterMap_cons_some picked, List.reverse_cons, List.append_assoc]
        rfl

theorem labelUuid_of_pvOf {dev : BlockRead} {pv : (BlockRead × String) × Option VolumeGroup}
    (read : pvOf id (dev, 0) = some pv) : labelUuid dev = some pv.1.2 := by
  obtain ⟨_, label, labelled, same, _⟩ := pvOf_eq_some read
  have label : readPvLabelOf dev 0 = .ok (some label) := labelled
  simp only [labelUuid, label, same]

/-- What a mapper is, and when there is one. -/
theorem ofDevices_eq_ok {devices : List BlockRead} {mapper : Mapper} :
    Mapper.ofDevices devices = .ok mapper ↔
      (∀ dev ∈ devices, ∃ pv, pvOf id (dev, 0) = some pv) ∧
        FirstHighest VolumeGroup.seqno (metadataCopies id devices) mapper.vg ∧
        mapper.uuidToDev = knownUuids devices.zipIdx ∧ mapper.devices = devices := by
  unfold Mapper.ofDevices
  rw [bind_eq_ok]
  constructor
  · rintro ⟨vg, group, rest⟩
    obtain ⟨uuids, labels, rest⟩ := bind_eq_ok.mp rest
    cases rest
    obtain ⟨each, best⟩ := readVolumeGroup_eq_ok.mp group
    exact ⟨each, best, (readUuids_eq_ok.mp labels).2, rfl⟩
  · rintro ⟨each, best, uuids, same⟩
    have labels : ∀ dev ∈ devices.zipIdx, ∃ uuid, labelUuid dev.1 = some uuid := by
      intro dev member
      have listed : dev.1 ∈ devices.zipIdx.map Prod.fst := List.mem_map_of_mem member
      rw [List.zipIdx_map_fst] at listed
      obtain ⟨pv, read⟩ := each dev.1 listed
      exact ⟨_, labelUuid_of_pvOf read⟩
    refine ⟨mapper.vg, readVolumeGroup_eq_ok.mpr ⟨each, best⟩, ?_⟩
    rw [readUuids_eq_ok.mpr ⟨labels, rfl⟩, ok_bind, ← uuids, ← same]

section Devices

variable {devices : List BlockRead} {mapper : Mapper}
  (uuids : mapper.uuidToDev = knownUuids devices.zipIdx)

include uuids

/-- The device found for a UUID carries it. -/
theorem label_of_deviceOf {uuid : String} {place : Nat}
    (found : mapper.deviceOf uuid = some place) :
    ∃ dev, devices[place]? = some dev ∧ labelUuid dev = some uuid := by
  unfold Mapper.deviceOf at found
  obtain ⟨entry, listed, rfl⟩ := Option.map_eq_some_iff.mp found
  have same := List.find?_some listed
  rw [decide_eq_true_eq] at same
  have member := List.mem_of_find?_eq_some listed
  rw [uuids, knownUuids, List.mem_reverse] at member
  obtain ⟨⟨dev, place⟩, given, picked⟩ := List.mem_filterMap.mp member
  obtain ⟨own, labelled, rfl⟩ := Option.map_eq_some_iff.mp picked
  exact ⟨dev, List.mem_zipIdx_iff_getElem?.mp given, by rw [labelled, ← same]⟩

/-- Some device is found for the UUID of every label. -/
theorem exists_deviceOf {dev : BlockRead} {uuid : String} (given : dev ∈ devices)
    (labelled : labelUuid dev = some uuid) : ∃ place, mapper.deviceOf uuid = some place := by
  have listed : dev ∈ devices.zipIdx.map Prod.fst := by rwa [List.zipIdx_map_fst]
  obtain ⟨⟨_, place⟩, member, rfl⟩ := List.mem_map.mp listed
  have known : (uuid, place) ∈ mapper.uuidToDev := by
    rw [uuids, knownUuids, List.mem_reverse]
    exact List.mem_filterMap.mpr ⟨_, member, by rw [labelEntry, labelled, Option.map_some]⟩
  have present : (mapper.uuidToDev.find? fun entry => entry.1 = uuid).isSome := by
    rw [List.find?_isSome]
    exact ⟨_, known, decide_eq_true rfl⟩
  obtain ⟨entry, found⟩ := Option.isSome_iff_exists.mp present
  exact ⟨entry.2, by rw [Mapper.deviceOf, found, Option.map_some]⟩

end Devices

/-! ## Opening in another order -/

/-- Metadata copies with equal numbers are identical. -/
def CopiesIdentical (devices : List BlockRead) : Prop :=
  ∀ first ∈ metadataCopies id devices, ∀ second ∈ metadataCopies id devices,
    first.seqno = second.seqno → first = second

/-- The devices that carry the UUID of a physical volume the volume touches are one and the
same: of one size, and with the same answer to every read. -/
def ClonesAlike (devices : List BlockRead) (name : String) : Prop :=
  ∀ vg, FirstHighest VolumeGroup.seqno (metadataCopies id devices) vg →
    ∀ uuid ∈ vg.touched 3 name, ∀ dev ∈ devices, ∀ other ∈ devices,
      labelUuid dev = some uuid → labelUuid other = some uuid → dev = other

section Reordered

variable {devices others : List BlockRead} (reordered : devices.Perm others)

include reordered

theorem CopiesIdentical.perm (identical : CopiesIdentical devices) : CopiesIdentical others := by
  have copies : (metadataCopies id devices).Perm (metadataCopies id others) :=
    metadataCopies_perm reordered
  intro first left second right
  exact identical first (copies.mem_iff.mpr left) second (copies.mem_iff.mpr right)

/-- The newest metadata is the same in every order. -/
theorem firstHighest_perm (identical : CopiesIdentical devices) {vg : VolumeGroup}
    (best : FirstHighest VolumeGroup.seqno (metadataCopies id devices) vg) :
    FirstHighest VolumeGroup.seqno (metadataCopies id others) vg := by
  have copies : (metadataCopies id devices).Perm (metadataCopies id others) :=
    metadataCopies_perm reordered
  have highest : ∀ other ∈ metadataCopies id others, other.seqno ≤ vg.seqno :=
    fun other listed => best.highest other (copies.mem_iff.mpr listed)
  refine ⟨?_, highest⟩
  have present : ((metadataCopies id others).find? fun other =>
      other.seqno = vg.seqno).isSome := by
    rw [List.find?_isSome]
    exact ⟨vg, copies.mem_iff.mp best.mem, decide_eq_true rfl⟩
  obtain ⟨found, listed⟩ := Option.isSome_iff_exists.mp present
  have number := List.find?_some listed
  rw [decide_eq_true_eq] at number
  have same := identical found (copies.mem_iff.mpr (List.mem_of_find?_eq_some listed)) vg best.mem
    number
  rw [listed, same]

theorem ClonesAlike.perm {name : String} (identical : CopiesIdentical devices)
    (clones : ClonesAlike devices name) : ClonesAlike others name := by
  intro vg best uuid touched dev given other also
  exact clones vg (firstHighest_perm reordered.symm (identical.perm reordered) best) uuid touched dev
    (reordered.mem_iff.mpr given) other (reordered.mem_iff.mpr also)

/-- A volume that opens in one order opens in the other, and reads the same. -/
theorem openVolume_perm {name : String} (identical : CopiesIdentical devices)
    (clones : ClonesAlike devices name) {volume : LogicalVolume}
    (opened : LogicalVolume.openVolume devices name = .ok volume) :
    ∃ other, LogicalVolume.openVolume others name = .ok other ∧ other.size = volume.size ∧
      ∀ offset len, other.readAt offset len = volume.readAt offset len := by
  obtain ⟨sameDevices, mapper, found, ofDevices, named, mapped⟩ :=
    LogicalVolume.openVolume_eq_ok opened
  obtain ⟨each, best, uuids, given⟩ := ofDevices_eq_ok.mp found
  let twin : Mapper := { vg := mapper.vg, uuidToDev := knownUuids others.zipIdx, devices := others }
  have again : Mapper.ofDevices others = .ok twin :=
    ofDevices_eq_ok.mpr ⟨fun dev listed => each dev (reordered.mem_iff.mpr listed),
      firstHighest_perm reordered identical best, rfl, rfl⟩
  have same : ∀ uuid ∈ mapper.vg.touched 3 name, SameDevice mapper twin uuid := by
    intro uuid touched
    unfold SameDevice
    have twinUuids : twin.uuidToDev = knownUuids others.zipIdx := rfl
    cases here : mapper.deviceOf uuid with
    | none =>
        cases there : twin.deviceOf uuid with
        | none => exact .none
        | some place =>
            obtain ⟨dev, listed, labelled⟩ := label_of_deviceOf twinUuids there
            obtain ⟨_, known⟩ := exists_deviceOf uuids
              (reordered.mem_iff.mpr (List.mem_of_getElem? listed)) labelled
            rw [here] at known
            cases known
    | some place =>
        obtain ⟨dev, listed, labelled⟩ := label_of_deviceOf uuids here
        obtain ⟨twinPlace, there⟩ := exists_deviceOf twinUuids
          (reordered.mem_iff.mp (List.mem_of_getElem? listed)) labelled
        obtain ⟨other, twinListed, twinLabelled⟩ := label_of_deviceOf twinUuids there
        have alike := clones mapper.vg best uuid touched dev (List.mem_of_getElem? listed) other
          (reordered.mem_iff.mpr (List.mem_of_getElem? twinListed)) labelled twinLabelled
        rw [there]
        refine .some ⟨dev, given ▸ listed, ?_⟩
        rw [alike]
        exact twinListed
  have group : mapper.vg = twin.vg := rfl
  have matched := Mapper.map_matched group 3 name same
  rw [mapped] at matched
  generalize twinMapped : twin.map 3 name = result at matched
  cases matched with
  | @ok _ result reads =>
      obtain ⟨runs, size⟩ := result
      obtain ⟨reads, rfl⟩ := reads
      refine ⟨⟨others, runs, volume.size, volume.info⟩, ?_, rfl, ?_⟩
      · unfold LogicalVolume.openVolume
        have twinNamed : twin.lv name = .ok volume.info := named
        rw [again, ok_bind, twinNamed, ok_bind, twinMapped]
        rfl
      · intro offset len
        unfold LogicalVolume.readAt
        dsimp only
        rw [sameDevices, ← given]
        have equal : readVolume mapper.devices 3 volume.runs = readVolume others 3 runs := reads
        rw [equal]

end Reordered

/-! ## Two physical volumes, or one and its clone -/

/-- A physical volume of a group of two, whose data is one byte throughout.  The group's
volume is on the first of them. -/
def pairPv (letter byte : UInt8) : WrittenPv where
  letter
  text := textOf [
    "vg \x7b", "id = \"vg\"", "seqno = 1", "extent_size = 1",
    "physical_volumes \x7b",
    "pv0 \x7b", "id = \"aaaaaaaa-aaaaaaaa-aaaaaaaa-aaaaaaaa\"", "pe_start = 4", "pe_count = 1", "\x7d",
    "pv1 \x7b", "id = \"bbbbbbbb-bbbbbbbb-bbbbbbbb-bbbbbbbb\"", "pe_start = 4", "pe_count = 1", "\x7d",
    "\x7d",
    "logical_volumes \x7b",
    "lv \x7b", "id = \"lv\"",
    "segment1 \x7b", "start_extent = 0", "extent_count = 1", "type = \"striped\"",
    "stripe_count = 1", "stripes = [\"pv0\", 0]", "\x7d",
    "\x7d", "\x7d", "\x7d"]
  data := List.replicate 512 byte
  some_text := by decide +kernel
  text_le := by decide +kernel
  no_nul := by decide +kernel
  data_lt := by
    rw [List.length_replicate]
    decide

def pairSegment : Segment :=
  ⟨0, 1, "striped", 0, [⟨"pv0", 0⟩], [], [], none, none, none, by decide⟩

def pairInfo : LogicalVolumeInfo := ⟨"lv", "lv", [pairSegment]⟩

def pairVg : VolumeGroup :=
  ⟨"vg", "vg", 1, 512, [⟨"pv0", "aaaaaaaaaaaaaaaaaaaaaaaaaaaaaaaa", 2048, 1⟩,
    ⟨"pv1", "bbbbbbbbbbbbbbbbbbbbbbbbbbbbbbbb", 2048, 1⟩], [pairInfo], oneSector_pos⟩

theorem pvOf_pairPv (letter byte : UInt8) (place : Nat) :
    pvOf id ((pairPv letter byte).device.toBlockRead, place) =
      some (((pairPv letter byte).device.toBlockRead, (pairPv letter byte).label.uuid),
        some pairVg) := by
  have parsed : (parseMetadata (Utf8.fromUtf8Lossy (pairPv letter byte).text) >>=
      VolumeGroup.fromMetadata) = .ok pairVg := by
    have text : (pairPv letter byte).text = (pairPv 0 0).text := rfl
    rw [text, parseMetadata_ascii (by decide +kernel)]
    decide +kernel
  have here : id (pairPv letter byte).device.toBlockRead =
    (pairPv letter byte).device.toBlockRead := rfl
  exact pvOf_written here parsed place

/-- Two devices of the group, the second of which is looked at first for a UUID. -/
def pairMapper (first second : WrittenPv) : Mapper where
  vg := pairVg
  uuidToDev := [(second.label.uuid, 1), (first.label.uuid, 0)]
  devices := [first.device.toBlockRead, second.device.toBlockRead]

section Pair

variable (letter byte otherLetter otherByte : UInt8)

theorem metadataCopies_pair : metadataCopies id [(pairPv letter byte).device.toBlockRead,
    (pairPv otherLetter otherByte).device.toBlockRead] = [pairVg, pairVg] := by
  simp [metadataCopies, labelledPvs, pvOf_pairPv]

theorem copiesIdentical_pair : CopiesIdentical [(pairPv letter byte).device.toBlockRead,
    (pairPv otherLetter otherByte).device.toBlockRead] := by
  intro first left second right _
  rw [metadataCopies_pair] at left right
  simp only [List.mem_cons, List.not_mem_nil, or_false, or_self] at left right
  rw [left, right]

theorem labelUuid_pairPv : labelUuid (pairPv letter byte).device.toBlockRead =
    some (pairPv letter byte).label.uuid :=
  labelUuid_of_pvOf (pvOf_pairPv letter byte 0)

theorem ofDevices_pair : Mapper.ofDevices [(pairPv letter byte).device.toBlockRead,
    (pairPv otherLetter otherByte).device.toBlockRead] =
      .ok (pairMapper (pairPv letter byte) (pairPv otherLetter otherByte)) := by
  refine ofDevices_eq_ok.mpr ⟨?_, ?_, ?_, rfl⟩
  · intro dev given
    rcases List.mem_pair.mp given with rfl | rfl
    · exact ⟨_, pvOf_pairPv letter byte 0⟩
    · exact ⟨_, pvOf_pairPv otherLetter otherByte 0⟩
  · rw [metadataCopies_pair]
    exact firstHighest_foldl pairVg [pairVg]
  · simp [knownUuids, labelEntry, labelUuid_pairPv, pairMapper]

/-- The volume reads as the device its UUID is found on. -/
theorem readAt_pair (dev : Nat) (pv : WrittenPv)
    (mapped : ((pairMapper (pairPv letter byte) (pairPv otherLetter otherByte)).map 3 "lv").isOk)
    (placed : (pairMapper (pairPv letter byte) (pairPv otherLetter otherByte)).extentPlace
      pairSegment 0 = some (⟨"pv0", "aaaaaaaaaaaaaaaaaaaaaaaaaaaaaaaa", 2048, 1⟩, dev, 2048))
    (own : [(pairPv letter byte).bytes, (pairPv otherLetter otherByte).bytes][dev]? =
      some pv.bytes) :
    ∃ volume, LogicalVolume.openVolume [(pairPv letter byte).device.toBlockRead,
        (pairPv otherLetter otherByte).device.toBlockRead] "lv" = .ok volume ∧
      volume.readAt 0 1 = .ok [pv.data.getD 0 default] := by
  obtain ⟨runs, size, resolved⟩ : ∃ runs size, (pairMapper (pairPv letter byte)
      (pairPv otherLetter otherByte)).map 3 "lv" = .ok (runs, size) := by
    cases result : (pairMapper (pairPv letter byte) (pairPv otherLetter otherByte)).map 3 "lv" with
    | error error =>
        rw [result] at mapped
        cases mapped
    | ok found => exact ⟨found.1, found.2, rfl⟩
  have found := ofDevices_pair letter byte otherLetter otherByte
  have named : (pairMapper (pairPv letter byte) (pairPv otherLetter otherByte)).lv "lv" =
      .ok pairInfo := rfl
  have known : ∀ uuid dev, (pairMapper (pairPv letter byte)
      (pairPv otherLetter otherByte)).deviceOf uuid = some dev →
        dev < (pairMapper (pairPv letter byte) (pairPv otherLetter otherByte)).devices.length :=
    fun _ _ => Mapper.deviceOf_lt found
  have striped : ∀ seg ∈ pairInfo.segments, seg.kind = "striped" := by decide
  have exact : Mapper.extents pairInfo.segments * 512 < 2 ^ 64 := by decide
  obtain ⟨size_eq, -, -⟩ := Mapper.striped_runs known resolved named striped exact
  replace size_eq : size = 512 := size_eq
  have held : List.Forall₂ BlockRead.Holds
      (pairMapper (pairPv letter byte) (pairPv otherLetter otherByte)).devices
      [(pairPv letter byte).bytes, (pairPv otherLetter otherByte).bytes] :=
    .cons (pairPv letter byte).device.holds (.cons (pairPv otherLetter otherByte).device.holds .nil)
  have reads := Mapper.readVolume_striped known resolved named striped exact held
    (show 0 + 1 ≤ size by omega)
  have located := (Mapper.striped_segments known resolved named striped exact
    [(pairPv letter byte).bytes, (pairPv otherLetter otherByte).bytes]).locate_of_mem
    (List.mem_map_of_mem (List.mem_singleton_self pairSegment)) (show 0 < 1 * 512 by decide)
  refine ⟨⟨[(pairPv letter byte).device.toBlockRead, (pairPv otherLetter otherByte).device.toBlockRead],
    runs, size, pairInfo⟩, ?_, ?_⟩
  · unfold LogicalVolume.openVolume
    rw [found, ok_bind, named, ok_bind, resolved]
    rfl
  · unfold LogicalVolume.readAt
    rw [if_neg (by dsimp only; omega)]
    refine reads.trans ?_
    have byteAt : (pairMapper (pairPv letter byte) (pairPv otherLetter otherByte)).volumeByte
        [(pairPv letter byte).bytes, (pairPv otherLetter otherByte).bytes] pairInfo.segments 0 =
          pv.data.getD 0 default := by
      rw [Mapper.volumeByte]
      refine (congrArg (Option.getD · default) located).trans ?_
      change Mapper.extentByte _ _ pairSegment 0 = _
      have disk : [(pairPv letter byte).bytes, (pairPv otherLetter otherByte).bytes].getD dev [] =
          pv.bytes := by
        rw [List.getD_eq_getElem?_getD, own, Option.getD_some]
      rw [Mapper.extentByte, placed]
      dsimp only
      rw [disk, ← WrittenPv.getD_bytes]
    exact congrArg (fun byte => Except.ok [byte]) byteAt

end Pair

end DiskPartitions
