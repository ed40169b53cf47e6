import DiskPartitions.MetadataRings
import DiskPartitions.ReorderedVolumes

/-!
# The newest readable metadata

A device may keep several copies of its group's metadata, and any of them may be damaged,
marked to be ignored, empty, or no volume group at all.  Among the copies that are none of
these the one with the highest number is read, and a copy that drops out hides no other.
-/

namespace DiskPartitions

open Slices LittleEndian Refusals Utf8 KeyedGroups

/-! ## One area -/

/-- The text that an area of a device keeps: the area and the record lie where they must, the
header and the text pass their checksums, and the header does not say to ignore the text. -/
structure AreaKeeps (dev : BlockRead) (area : Nat × Nat) (off : Nat) (text : List UInt8) :
    Prop where
  inside : area.1 + area.2 ≤ dev.sizeBytes.toNat
  starts : mdaHeaderSize ≤ off
  ends : off < area.2
  some_text : 0 < text.length
  bounded : text.length ≤ maxMetadata
  header : ∃ header, dev.readLvm area.1 mdaHeaderSize = .ok header ∧ HeaderRecords header off text
  ring : readRing dev area.1 area.2 off text.length = .ok text

/-- The text of an area up to its first zero byte, as a string. -/
def areaText (text : List UInt8) : String :=
  fromUtf8Lossy (text.takeWhile (· ≠ 0))

theorem length_readLvm {dev : BlockRead} {offset len : Nat} {bytes : List UInt8}
    (read : dev.readLvm offset len = .ok bytes) : bytes.length = len := by
  unfold BlockRead.readLvm at read
  cases found : dev.readAt offset len with
  | error error =>
      rw [found] at read
      cases read
  | ok value =>
      rw [found] at read
      cases read
      exact dev.length_readAt found

theorem length_readRing {dev : BlockRead} {start size off len : Nat} {text : List UInt8}
    (read : readRing dev start size off len = .ok text) : text.length = len := by
  unfold readRing at read
  dsimp only at read
  obtain ⟨head, first, read⟩ := bind_eq_ok.mp read
  have front := length_readLvm first
  split at read
  next wraps =>
    obtain ⟨_, read⟩ := refuseIf_bind_eq_ok.mp read
    obtain ⟨tail, second, read⟩ := bind_eq_ok.mp read
    have back := length_readLvm second
    cases read
    rw [List.length_append, front, back]
    omega
  next whole =>
    cases read
    omega

/-- An area is read as the text it keeps. -/
theorem readArea_eq_some {dev : BlockRead} {area : Nat × Nat} {device : Nat} {found : String} :
    readArea dev area.1 area.2 device = .ok (some found) ↔
      ∃ off text, AreaKeeps dev area off text ∧ found = areaText text := by
  unfold readArea
  rw [refuseIf_bind_eq_ok, bind_eq_ok]
  constructor
  · rintro ⟨placed, h, headed, rest⟩
    rw [refuseIf_bind_eq_ok, refuseIf_bind_eq_ok] at rest
    obtain ⟨checksum, magic, rest⟩ := rest
    dsimp only at rest
    split at rest
    next ignored => cases rest
    next wanted =>
      rw [refuseIf_bind_eq_ok, bind_eq_ok] at rest
      obtain ⟨fits, text, ring, rest⟩ := rest
      rw [refuseIf_bind_eq_ok] at rest
      obtain ⟨textChecksum, rest⟩ := rest
      cases rest
      have length := length_readRing ring
      refine ⟨field h 40 8, text, ?_, rfl⟩
      constructor
      · omega
      · omega
      · omega
      · omega
      · omega
      · exact ⟨h, headed, ⟨(not_not.mp checksum).symm, not_not.mp magic, rfl, length.symm,
          (not_not.mp textChecksum).symm, by omega⟩⟩
      · rw [length]
        exact ring
  · rintro ⟨off, text, kept, rfl⟩
    obtain ⟨h, headed, records⟩ := kept.header
    have inside := kept.inside
    have starts := kept.starts
    have ends := kept.ends
    have some_text := kept.some_text
    have bounded := kept.bounded
    have width : mdaHeaderSize = 512 := rfl
    have onDevice := dev.sizeBytes.toNat_lt
    refine ⟨by omega, h, headed, ?_⟩
    rw [refuseIf_of_not (not_not.mpr records.checksum.symm), ok_bind,
      refuseIf_of_not (not_not.mpr records.magic), ok_bind]
    simp only [records.begins, records.length, records.textChecksum, records.read]
    rw [if_neg (by omega), refuseIf_of_not (by omega), ok_bind, kept.ring, ok_bind,
      refuseIf_of_not (not_not.mpr rfl), ok_bind]
    rfl

/-! ## The areas of a device -/

/-- The volume group an area keeps with the text it was decoded from, when there is one. -/
def areaCopy (dev : BlockRead) (device : Nat) (area : Nat × Nat) : Option (VolumeGroup × String) :=
  match readArea dev area.1 area.2 device with
  | .ok (some text) =>
      match parseMetadata text >>= VolumeGroup.fromMetadata with
      | .ok vg => some (vg, text)
      | .error _ => none
  | _ => none

theorem areaCopy_eq_some {dev : BlockRead} {device : Nat} {area : Nat × Nat}
    {copy : VolumeGroup × String} :
    areaCopy dev device area = some copy ↔
      readArea dev area.1 area.2 device = .ok (some copy.2) ∧
        (parseMetadata copy.2 >>= VolumeGroup.fromMetadata) = .ok copy.1 := by
  unfold areaCopy
  rcases readArea dev area.1 area.2 device with error | _ | text
  · simp
  · simp
  · dsimp only
    rcases decoded : parseMetadata text >>= VolumeGroup.fromMetadata with error | vg
    · constructor
      · rintro ⟨⟩
      · rintro ⟨⟨⟩, other⟩
        rw [decoded] at other
        cases other
    · constructor
      · rintro ⟨⟩
        exact ⟨rfl, decoded⟩
      · rintro ⟨⟨⟩, other⟩
        rw [decoded] at other
        cases other
        rfl

/-- The copies met so far leave the first of the newest of them, or there was none. -/
def NewestText.Newest (found : NewestText) (copies : List (VolumeGroup × String)) : Prop :=
  copies = [] ∧ found.newest = none ∨
    ∃ copy, FirstHighest (fun copy => copy.1.seqno) copies copy ∧
      found.newest = some (copy.1.seqno, copy.2)

/-- An area that keeps no copy changes nothing. -/
theorem addArea_of_none {dev : BlockRead} {device : Nat} {found : NewestText} {area : Nat × Nat}
    (none_kept : areaCopy dev device area = none) :
    (found.addArea dev device area).newest = found.newest := by
  unfold NewestText.addArea
  unfold areaCopy at none_kept
  rcases read : readArea dev area.1 area.2 device with error | _ | text
  · rfl
  · rfl
  · rw [read] at none_kept
    dsimp only at none_kept ⊢
    rcases decoded : parseMetadata text >>= VolumeGroup.fromMetadata with error | vg
    · rfl
    · rw [decoded] at none_kept
      cases none_kept

/-- A copy is kept when it is newer than the one kept so far. -/
theorem addArea_of_some {dev : BlockRead} {device : Nat} {found : NewestText} {area : Nat × Nat}
    {copy : VolumeGroup × String} (kept : areaCopy dev device area = some copy) :
    (found.addArea dev device area).newest =
      if found.newest.all fun best => decide (best.1 < copy.1.seqno) then
        some (copy.1.seqno, copy.2) else found.newest := by
  obtain ⟨read, decoded⟩ := areaCopy_eq_some.mp kept
  unfold NewestText.addArea
  rw [read]
  dsimp only
  rw [decoded]
  dsimp only
  split
  next => rfl
  next => rfl

/-- One more area. -/
theorem NewestText.Newest.addArea {dev : BlockRead} {device : Nat} {found : NewestText}
    {copies : List (VolumeGroup × String)} (newest : found.Newest copies) (area : Nat × Nat) :
    (found.addArea dev device area).Newest (copies ++ (areaCopy dev device area).toList) := by
  unfold NewestText.Newest
  cases kept : areaCopy dev device area with
  | none =>
      rw [addArea_of_none kept, Option.toList_none, List.append_nil]
      exact newest
  | some copy =>
      rw [addArea_of_some kept, Option.toList_some]
      right
      rcases newest with ⟨rfl, empty⟩ | ⟨best, highest, held⟩
      · refine ⟨copy, ⟨by simp, by simp⟩, ?_⟩
        rw [empty]
        rfl
      · refine ⟨_, highest.append copy, ?_⟩
        rw [held]
        simp only [newer, Option.all_some, decide_eq_true_eq]
        split
        next => rfl
        next => rfl

/-- The areas of a device leave the first of the newest copies they keep. -/
theorem newest_foldl (dev : BlockRead) (device : Nat) (areas : List (Nat × Nat)) :
    (areas.foldl (NewestText.addArea dev device) ⟨none, none⟩).Newest
      (areas.filterMap (areaCopy dev device)) := by
  induction areas using List.reverseRecOn with
  | nil => exact .inl ⟨rfl, rfl⟩
  | append_singleton areas area ih =>
      rw [List.foldl_append, List.filterMap_append]
      have last : [area].filterMap (areaCopy dev device) = (areaCopy dev device area).toList := by
        cases kept : areaCopy dev device area with
        | none => rw [List.filterMap_cons_none kept, List.filterMap_nil, Option.toList_none]
        | some copy => rw [List.filterMap_cons_some kept, List.filterMap_nil, Option.toList_some]
      rw [last]
      exact ih.addArea area

/-- A volume group that one of the areas named by a label keeps. -/
def GoodCopy (dev : BlockRead) (label : PvLabel) (vg : VolumeGroup) : Prop :=
  ∃ area ∈ label.metadataAreas, ∃ off text, AreaKeeps dev area off text ∧
    (parseMetadata (areaText text) >>= VolumeGroup.fromMetadata) = .ok vg

theorem goodCopy_iff {dev : BlockRead} {label : PvLabel} {vg : VolumeGroup} (device : Nat) :
    GoodCopy dev label vg ↔
      ∃ copy ∈ label.metadataAreas.filterMap (areaCopy dev device), copy.1 = vg := by
  constructor
  · rintro ⟨area, listed, off, text, kept, decoded⟩
    refine ⟨(vg, areaText text), List.mem_filterMap.mpr ⟨area, listed, ?_⟩, rfl⟩
    exact areaCopy_eq_some.mpr ⟨readArea_eq_some.mpr ⟨off, text, kept, rfl⟩, decoded⟩
  · rintro ⟨copy, member, rfl⟩
    obtain ⟨area, listed, found⟩ := List.mem_filterMap.mp member
    obtain ⟨read, decoded⟩ := areaCopy_eq_some.mp found
    obtain ⟨off, text, kept, same⟩ := readArea_eq_some.mp read
    exact ⟨area, listed, off, text, kept, same ▸ decoded⟩

/-- A volume group that a device keeps and none of its copies is newer than. -/
structure NewestCopy (dev : BlockRead) (label : PvLabel) (vg : VolumeGroup) : Prop where
  good : GoodCopy dev label vg
  highest : ∀ other, GoodCopy dev label other → other.seqno ≤ vg.seqno

theorem newestCopy_of_firstHighest {dev : BlockRead} {label : PvLabel} {device : Nat}
    {copy : VolumeGroup × String}
    (best : FirstHighest (fun copy => copy.1.seqno)
      (label.metadataAreas.filterMap (areaCopy dev device)) copy) :
    NewestCopy dev label copy.1 where
  good := (goodCopy_iff device).mpr ⟨copy, best.mem, rfl⟩
  highest := by
    intro other good
    obtain ⟨found, member, rfl⟩ := (goodCopy_iff device).mp good
    exact best.highest found member

/-- The text read from a device is that of its newest copy. -/
theorem newestCopy_of_readMetadataTextOf {dev : BlockRead} {label : PvLabel} {device : Nat}
    {text : String} (read : readMetadataTextOf dev label device = .ok (some text)) :
    ∃ vg, NewestCopy dev label vg ∧
      (parseMetadata text >>= VolumeGroup.fromMetadata) = .ok vg := by
  unfold readMetadataTextOf at read
  dsimp only at read
  rcases newest_foldl dev device label.metadataAreas with ⟨_, empty⟩ | ⟨copy, best, held⟩
  · rw [empty] at read
    split at read
    next same => cases same
    next => cases read
    next => cases read
  · rw [held] at read
    cases read
    obtain ⟨area, _, found⟩ := List.mem_filterMap.mp best.mem
    exact ⟨copy.1, newestCopy_of_firstHighest best, (areaCopy_eq_some.mp found).2⟩

/-- A device with a good copy is read, whatever its other areas hold. -/
theorem readMetadataTextOf_of_goodCopy {dev : BlockRead} {label : PvLabel} {copy : VolumeGroup}
    (good : GoodCopy dev label copy) (device : Nat) :
    ∃ text, readMetadataTextOf dev label device = .ok (some text) := by
  unfold readMetadataTextOf
  dsimp only
  rcases newest_foldl dev device label.metadataAreas with ⟨none_kept, _⟩ | ⟨best, _, held⟩
  · obtain ⟨found, member, _⟩ := (goodCopy_iff device).mp good
    rw [none_kept] at member
    cases member
  · rw [held]
    exact ⟨best.2, rfl⟩

/-! ## The devices of a group -/

/-- The metadata copy taken from a device is its newest. -/
theorem newestCopy_of_mem_metadataCopies {devices : List BlockRead} {vg : VolumeGroup}
    (listed : vg ∈ metadataCopies id devices) :
    ∃ dev ∈ devices, ∃ label, readPvLabelOf dev 0 = .ok (some label) ∧ NewestCopy dev label vg := by
  rw [metadataCopies, labelledPvs_eq] at listed
  obtain ⟨pv, member, decoded⟩ := List.mem_filterMap.mp listed
  obtain ⟨dev, given, found⟩ := List.mem_filterMap.mp member
  obtain ⟨_, label, labelled, _, read⟩ := pvOf_eq_some found
  refine ⟨dev, given, label, labelled, ?_⟩
  rw [decoded] at read
  unfold readGroupOf at read
  obtain ⟨text, metadata, read⟩ := bind_eq_ok.mp read
  cases text with
  | none => cases read
  | some text =>
      obtain ⟨newest, best, parsed⟩ := newestCopy_of_readMetadataTextOf metadata
      obtain ⟨top, first, parsed⟩ := bind_eq_ok.mp parsed
      obtain ⟨other, same, read⟩ := bind_eq_ok.mp read
      rw [first] at same
      cases same
      obtain ⟨group, same, read⟩ := bind_eq_ok.mp read
      rw [parsed] at same
      cases same
      cases read
      exact best

/-- A good copy on a device that was read is no newer than the copy taken from it. -/
theorem exists_newer_of_goodCopy {devices : List BlockRead} {dev : BlockRead} (given : dev ∈ devices)
    (each : ∃ pv, pvOf id (dev, 0) = some pv) {label : PvLabel}
    (labelled : readPvLabelOf dev 0 = .ok (some label)) {copy : VolumeGroup}
    (good : GoodCopy dev label copy) :
    ∃ vg ∈ metadataCopies id devices, copy.seqno ≤ vg.seqno := by
  obtain ⟨pv, found⟩ := each
  obtain ⟨_, other, here, _, read⟩ := pvOf_eq_some found
  change readPvLabelOf dev 0 = _ at here
  rw [labelled] at here
  cases here
  obtain ⟨text, metadata⟩ := readMetadataTextOf_of_goodCopy good 0
  obtain ⟨vg, newest, parsed⟩ := newestCopy_of_readMetadataTextOf metadata
  obtain ⟨top, first, second⟩ := bind_eq_ok.mp parsed
  have taken : readGroupOf dev label 0 = .ok (some vg) := by
    unfold readGroupOf
    rw [metadata, ok_bind]
    dsimp only
    rw [first, ok_bind, second, ok_bind]
  change readGroupOf dev label 0 = _ at read
  rw [taken] at read
  refine ⟨vg, ?_, newest.highest copy good⟩
  rw [metadataCopies, labelledPvs_eq]
  exact List.mem_filterMap.mpr ⟨pv, List.mem_filterMap.mpr ⟨dev, given, found⟩,
    (Except.ok.inj read).symm⟩

end DiskPartitions
