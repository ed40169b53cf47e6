import DiskPartitions.LabelPlaces
import DiskPartitions.LvmScans
import DiskPartitions.WrittenLabels

/-!
# Scanning devices in another order

The labels, the metadata copies and so the newest metadata of each group do not depend on
the order the devices are given in.  Which group a labelled device is given to does, when
the newest metadata of two groups names it: the group met first takes it.
-/

namespace DiskPartitions

open Refusals KeyedGroups

variable {R : Type} {view : R → BlockRead}

/-! ## Devices given at other places -/

theorem alike_readGroupOf (dev : BlockRead) (label : PvLabel) (here there : Nat) :
    Alike (readGroupOf dev label here) (readGroupOf dev label there) :=
  (alike_readMetadataTextOf dev label here there).bind fun _ => .refl _

theorem pvOf_place (dev : R) (here there : Nat) :
    pvOf view (dev, here) = pvOf view (dev, there) := by
  unfold pvOf
  dsimp only
  rcases (alike_readPvLabelOf (view dev) here there).cases with ⟨label, left, right⟩ |
    ⟨_, _, left, right⟩
  · rw [left, right]
    cases label with
    | none => rfl
    | some label =>
        dsimp only
        rcases (alike_readGroupOf (view dev) label here there).cases with ⟨vg, left, right⟩ |
          ⟨_, _, left, right⟩
        · rw [left, right]
        · rw [left, right]
  · rw [left, right]

theorem unlabelledOf_place (dev : R) (here there : Nat) :
    unlabelledOf view (dev, here) = unlabelledOf view (dev, there) := by
  unfold unlabelledOf
  dsimp only
  rcases (alike_readPvLabelOf (view dev) here there).cases with ⟨label, left, right⟩ |
    ⟨_, _, left, right⟩
  · rw [left, right]
  · rw [left, right]

theorem failedOf_place (dev : R) (here there : Nat) :
    (failedOf view (dev, here)).map Prod.fst = (failedOf view (dev, there)).map Prod.fst := by
  unfold failedOf
  dsimp only
  rcases (alike_readPvLabelOf (view dev) here there).cases with ⟨label, left, right⟩ |
    ⟨_, _, left, right⟩
  · rw [left, right]
    cases label with
    | none => rfl
    | some label =>
        dsimp only
        rcases (alike_readGroupOf (view dev) label here there).cases with ⟨vg, left, right⟩ |
          ⟨_, _, left, right⟩
        · rw [left, right]
        · rw [left, right]
          rfl
  · rw [left, right]
    rfl

/-- Picking that does not look at a device's place may put every device at the first. -/
theorem filterMap_zipIdx {α : Type} {pick : R × Nat → Option α}
    (same : ∀ dev here there, pick (dev, here) = pick (dev, there)) (devices : List R) :
    devices.zipIdx.filterMap pick = devices.filterMap fun dev => pick (dev, 0) := by
  calc devices.zipIdx.filterMap pick
      = devices.zipIdx.filterMap fun device => pick (device.1, 0) :=
        List.filterMap_congr fun device _ => same device.1 device.2 0
    _ = (devices.zipIdx.map Prod.fst).filterMap fun dev => pick (dev, 0) := by
        rw [List.filterMap_map]
        rfl
    _ = devices.filterMap fun dev => pick (dev, 0) := by rw [List.zipIdx_map_fst]

theorem labelledPvs_eq (devices : List R) :
    labelledPvs view devices = devices.filterMap fun dev => pvOf view (dev, 0) :=
  filterMap_zipIdx pvOf_place devices

section Reordered

variable {devices others : List R} (perm : devices.Perm others)

include perm

theorem labelledPvs_perm : (labelledPvs view devices).Perm (labelledPvs view others) := by
  rw [labelledPvs_eq, labelledPvs_eq]
  exact perm.filterMap _

theorem metadataCopies_perm :
    (metadataCopies view devices).Perm (metadataCopies view others) :=
  (labelledPvs_perm perm).filterMap _

theorem unlabelled_perm : (devices.zipIdx.filterMap (unlabelledOf view)).Perm
    (others.zipIdx.filterMap (unlabelledOf view)) := by
  rw [filterMap_zipIdx unlabelledOf_place, filterMap_zipIdx unlabelledOf_place]
  exact perm.filterMap _

theorem failed_perm : ((devices.zipIdx.filterMap (failedOf view)).map Prod.fst).Perm
    ((others.zipIdx.filterMap (failedOf view)).map Prod.fst) := by
  rw [List.map_filterMap, List.map_filterMap, filterMap_zipIdx failedOf_place,
    filterMap_zipIdx failedOf_place]
  exact perm.filterMap _

end Reordered

/-! ## Scans that report the same -/

/-- Two scans report the same groups with the same metadata, the same devices in each and
the same missing keys, and the same devices apart from them. -/
structure SameScan (first second : LvmScan R) : Prop where
  groups : (first.volumeGroups.map VolumeGroupDevices.volumeGroup).Perm
    (second.volumeGroups.map VolumeGroupDevices.volumeGroup)
  members : ∀ group ∈ first.volumeGroups, ∀ other ∈ second.volumeGroups,
    group.volumeGroup.id = other.volumeGroup.id →
      group.devices.Perm other.devices ∧ group.missing = other.missing
  unclaimed : first.unclaimed.Perm second.unclaimed
  others : first.others.Perm second.others
  refused : (first.refused.map Prod.fst).Perm (second.refused.map Prod.fst)

/-- The metadata copies of one group with equal numbers are identical. -/
def IdenticalCopies (view : R → BlockRead) (devices : List R) : Prop :=
  Identical VolumeGroup.id VolumeGroup.seqno (metadataCopies view devices)

/-- No labelled device is named by the newest metadata of two groups. -/
def ClaimedOnce (view : R → BlockRead) (devices : List R) : Prop :=
  ∀ pv ∈ labelledPvs view devices, ∀ first second,
    IsNewest VolumeGroup.id VolumeGroup.seqno (metadataCopies view devices) first →
    IsNewest VolumeGroup.id VolumeGroup.seqno (metadataCopies view devices) second →
    first.names pv.1.2 = true → second.names pv.1.2 = true → first.id = second.id

theorem mem_newestGroups {devices : List R} (identical : IdenticalCopies view devices)
    {vg : VolumeGroup} : vg ∈ newestGroups view devices ↔
      IsNewest VolumeGroup.id VolumeGroup.seqno (metadataCopies view devices) vg :=
  mem_gather_iff identical

theorem nodup_newestGroups (devices : List R) :
    ((newestGroups view devices).map VolumeGroup.id).Nodup :=
  (volumeGrouping.gathered_gather (metadataCopies view devices)).nodup

/-- A device named by one group at most goes to that group whatever the order. -/
theorem claimant_eq_some_iff {groups : List VolumeGroup} {pv : R × String}
    (ids : (groups.map VolumeGroup.id).Nodup)
    (once : ∀ first ∈ groups, ∀ second ∈ groups, first.names pv.2 = true →
      second.names pv.2 = true → first.id = second.id)
    {vg : VolumeGroup} {place : Nat} (own : groups[place]? = some vg) :
    claimant groups pv = some place ↔ vg.names pv.2 = true := by
  obtain ⟨bound, same⟩ := List.getElem?_eq_some_iff.mp own
  subst same
  unfold claimant
  rw [List.findIdx?_eq_some_iff_getElem]
  constructor
  · rintro ⟨_, named, _⟩
    exact named
  · intro named
    refine ⟨bound, named, ?_⟩
    intro other earlier otherNamed
    have inside : other < groups.length := by omega
    have equal := once _ (List.getElem_mem inside) _ (List.getElem_mem bound) otherNamed named
    have listed : (groups.map VolumeGroup.id)[other]? = (groups.map VolumeGroup.id)[place]? := by
      rw [List.getElem?_map, List.getElem?_map, List.getElem?_eq_getElem inside,
        List.getElem?_eq_getElem bound, Option.map_some, Option.map_some, equal]
    have places := (List.getElem?_inj (by simpa using inside) ids).mp listed
    omega

/-- A device that no group names is claimed by none. -/
theorem claimant_eq_none_iff {groups : List VolumeGroup} {pv : R × String} :
    claimant groups pv = none ↔ ∀ vg ∈ groups, vg.names pv.2 = false := by
  unfold claimant
  rw [List.findIdx?_eq_none_iff]

/-- Where no device is named by two groups, every group has the devices it names. -/
theorem lvmScan_of_claimedOnce {devices : List R} (identical : IdenticalCopies view devices)
    (once : ClaimedOnce view devices) :
    lvmScan view devices =
      { volumeGroups := (newestGroups view devices).map fun vg =>
          groupDevices (vg, ((labelledPvs view devices).map Prod.fst).filter fun pv =>
            vg.names pv.2)
        unclaimed := (((labelledPvs view devices).map Prod.fst).filter fun pv =>
          (newestGroups view devices).all fun vg => !vg.names pv.2).map Prod.fst
        others := devices.zipIdx.filterMap (unlabelledOf view)
        refused := devices.zipIdx.filterMap (failedOf view) } := by
  have named : ∀ pv ∈ (labelledPvs view devices).map Prod.fst,
      ∀ first ∈ newestGroups view devices, ∀ second ∈ newestGroups view devices,
        first.names pv.2 = true → second.names pv.2 = true → first.id = second.id := by
    intro pv listed first left second right
    obtain ⟨whole, labelled, rfl⟩ := List.mem_map.mp listed
    exact once whole labelled first second ((mem_newestGroups identical).mp left)
      ((mem_newestGroups identical).mp right)
  rw [lvmScan_eq]
  congr 1
  · calc (newestGroups view devices).zipIdx.map _
        = (newestGroups view devices).zipIdx.map fun group =>
            groupDevices (group.1, ((labelledPvs view devices).map Prod.fst).filter fun pv =>
              group.1.names pv.2) := by
          refine List.map_congr_left fun group listed => ?_
          have own := List.mem_zipIdx_iff_getElem?.mp listed
          congr 2
          refine List.filter_congr fun pv labelled => ?_
          rw [Bool.eq_iff_iff, decide_eq_true_iff]
          exact claimant_eq_some_iff (nodup_newestGroups devices) (named pv labelled) own
      _ = ((newestGroups view devices).zipIdx.map Prod.fst).map fun vg =>
            groupDevices (vg, ((labelledPvs view devices).map Prod.fst).filter fun pv =>
              vg.names pv.2) := by
          rw [List.map_map]
          rfl
      _ = _ := by rw [List.zipIdx_map_fst]
  · congr 1
    refine List.filter_congr fun pv _ => ?_
    rw [Bool.eq_iff_iff, decide_eq_true_iff, claimant_eq_none_iff, List.all_eq_true]
    simp

section Reordered

variable {devices others : List R} (identical : IdenticalCopies view devices)

include identical

theorem newestGroups_perm (perm : devices.Perm others) :
    (newestGroups view devices).Perm (newestGroups view others) :=
  perm_gather identical (metadataCopies_perm perm)

omit identical in
theorem ClaimedOnce.perm (once : ClaimedOnce view devices) (perm : devices.Perm others) :
    ClaimedOnce view others := by
  intro pv labelled first second left right
  exact once pv ((labelledPvs_perm perm).mem_iff.mpr labelled) first second
    ((isNewest_perm (metadataCopies_perm perm) first).mpr left)
    ((isNewest_perm (metadataCopies_perm perm) second).mpr right)

/-- Two newest metadata of one group are the same. -/
theorem eq_of_newest {first second : VolumeGroup}
    (left : IsNewest VolumeGroup.id VolumeGroup.seqno (metadataCopies view devices) first)
    (right : IsNewest VolumeGroup.id VolumeGroup.seqno (metadataCopies view devices) second)
    (same : first.id = second.id) : first = second := by
  have seqno : first.seqno = second.seqno :=
    Nat.le_antisymm (right.2 first left.1 same) (left.2 second right.1 same.symm)
  exact identical first left.1 second right.1 same seqno

/-- Where no device is named by two groups, the order does not matter. -/
theorem sameScan_of_claimedOnce (once : ClaimedOnce view devices) (perm : devices.Perm others) :
    SameScan (lvmScan view devices) (lvmScan view others) := by
  have again : IdenticalCopies view others := identical.perm (metadataCopies_perm perm)
  have pvs : ((labelledPvs view devices).map Prod.fst).Perm
      ((labelledPvs view others).map Prod.fst) := (labelledPvs_perm perm).map _
  have groups := newestGroups_perm identical perm
  rw [lvmScan_of_claimedOnce identical once, lvmScan_of_claimedOnce again (once.perm perm)]
  constructor
  case groups =>
    have named : ∀ (groups : List VolumeGroup) (given : VolumeGroup → List (R × String)),
        (groups.map fun vg => groupDevices (vg, given vg)).map VolumeGroupDevices.volumeGroup =
          groups := by
      intro groups given
      rw [List.map_map]
      exact List.map_id groups
    rw [named, named]
    exact groups
  case members =>
    intro group listed other also same
    obtain ⟨vg, left, rfl⟩ := List.mem_map.mp listed
    obtain ⟨copy, right, rfl⟩ := List.mem_map.mp also
    obtain rfl : vg = copy := eq_of_newest identical ((mem_newestGroups identical).mp left)
      ((mem_newestGroups identical).mp (groups.mem_iff.mpr right)) same
    refine ⟨(pvs.filter _).map _, ?_⟩
    simp only [groupDevices]
    congr 1
    refine List.filter_congr fun pv _ => ?_
    rw [(pvs.filter _).any_eq]
  case unclaimed =>
    refine List.Perm.map _ ?_
    have all : (fun pv : R × String => (newestGroups view devices).all fun vg => !vg.names pv.2) =
        fun pv => (newestGroups view others).all fun vg => !vg.names pv.2 :=
      funext fun pv => groups.all_eq
    rw [all]
    exact pvs.filter _
  case others => exact unlabelled_perm perm
  case refused => exact failed_perm perm

/-- The group met first takes every device its metadata names, and a scan that reports the
same in every order has given it the device too. -/
theorem exists_group_of_sameScan
    (same : ∀ others, devices.Perm others → SameScan (lvmScan view devices) (lvmScan view others))
    {pv : (R × String) × Option VolumeGroup} (labelled : pv ∈ labelledPvs view devices)
    {vg : VolumeGroup}
    (newest : IsNewest VolumeGroup.id VolumeGroup.seqno (metadataCopies view devices) vg)
    (named : vg.names pv.1.2 = true) :
    ∃ group ∈ (lvmScan view devices).volumeGroups, group.volumeGroup = vg ∧
      pv.1.1 ∈ group.devices := by
  obtain ⟨own, listed, copy⟩ := List.mem_filterMap.mp newest.1
  rw [labelledPvs_eq] at listed
  obtain ⟨dev, given, read⟩ := List.mem_filterMap.mp listed
  obtain ⟨before, after, rfl⟩ := List.append_of_mem given
  have perm : (before ++ dev :: after).Perm (dev :: (before ++ after)) := List.perm_middle
  obtain ⟨rest, copies⟩ : ∃ rest, metadataCopies view (dev :: (before ++ after)) = vg :: rest := by
    rw [metadataCopies, labelledPvs, List.zipIdx_cons, List.filterMap_cons_some read,
      List.filterMap_cons_some copy]
    exact ⟨_, rfl⟩
  have first : ∃ tail, newestGroups view (dev :: (before ++ after)) = vg :: tail := by
    have copiesPerm : (metadataCopies view (before ++ dev :: after)).Perm (vg :: rest) :=
      copies ▸ metadataCopies_perm perm
    rw [newestGroups, copies]
    exact gather_cons_newest identical copiesPerm newest
  obtain ⟨tail, groups⟩ := first
  have claimed : claimant (newestGroups view (dev :: (before ++ after))) pv.1 = some 0 := by
    rw [groups, claimant, List.findIdx?_cons, if_pos named]
  have reordered := same _ perm
  rw [lvmScan_eq view (dev :: (before ++ after)), groups] at reordered
  obtain ⟨group, member, metadata⟩ := List.mem_map.mp
    (reordered.groups.mem_iff.mpr (List.mem_cons_self : vg ∈ _))
  refine ⟨group, member, metadata, ?_⟩
  have sameDevices := (reordered.members group member _ List.mem_cons_self
    (congrArg VolumeGroup.id metadata)).1
  refine sameDevices.mem_iff.mpr (List.mem_map_of_mem (List.mem_filter.mpr ⟨?_, ?_⟩))
  · exact List.mem_map_of_mem ((labelledPvs_perm perm).mem_iff.mp labelled)
  · rw [← groups]
    exact decide_eq_true claimed

omit identical in
/-- A device the scan has given to two groups has one claimant, so they are one. -/
theorem eq_of_mem_devices {first second : VolumeGroupDevices R} {dev : R}
    (left : first ∈ (lvmScan view devices).volumeGroups)
    (right : second ∈ (lvmScan view devices).volumeGroups)
    (here : dev ∈ first.devices) (there : dev ∈ second.devices) : first = second := by
  rw [lvmScan_eq] at left right
  obtain ⟨⟨vg, place⟩, own, ownDevices⟩ := List.mem_map.mp left
  obtain ⟨⟨copy, other⟩, also, otherDevices⟩ := List.mem_map.mp right
  rw [← ownDevices] at here
  rw [← otherDevices] at there
  have claimedBy : ∀ {place : Nat}, dev ∈ (((labelledPvs view devices).map Prod.fst).filter fun pv =>
      claimant (newestGroups view devices) pv = some place).map Prod.fst →
        ∃ pv, pvOf view (dev, 0) = some pv ∧
          claimant (newestGroups view devices) pv.1 = some place := by
    intro place given
    obtain ⟨_, kept, rfl⟩ := List.mem_map.mp given
    obtain ⟨listed, claimed⟩ := List.mem_filter.mp kept
    obtain ⟨pv, labelled, rfl⟩ := List.mem_map.mp listed
    rw [labelledPvs_eq] at labelled
    obtain ⟨dev, _, read⟩ := List.mem_filterMap.mp labelled
    refine ⟨pv, ?_, of_decide_eq_true claimed⟩
    rw [(pvOf_eq_some read).1]
    exact read
  obtain ⟨pv, read, claimed⟩ := claimedBy here
  obtain ⟨again, readAgain, claimedAgain⟩ := claimedBy there
  obtain rfl := Option.some.inj (read.symm.trans readAgain)
  have places : place = other := Option.some.inj (claimed.symm.trans claimedAgain)
  subst places
  have same : vg = copy := Option.some.inj
    ((List.mem_zipIdx_iff_getElem?.mp own).symm.trans (List.mem_zipIdx_iff_getElem?.mp also))
  rw [← ownDevices, ← otherDevices, same]

/-- What the scan reports does not depend on the order exactly when no labelled device is
named by the newest metadata of two groups. -/
theorem sameScan_iff_claimedOnce :
    (∀ others, devices.Perm others → SameScan (lvmScan view devices) (lvmScan view others)) ↔
      ClaimedOnce view devices := by
  constructor
  · intro same pv labelled first second left right namedFirst namedSecond
    obtain ⟨group, member, rfl, here⟩ :=
      exists_group_of_sameScan identical same labelled left namedFirst
    obtain ⟨other, also, rfl, there⟩ :=
      exists_group_of_sameScan identical same labelled right namedSecond
    rw [eq_of_mem_devices member also here there]
  · intro once others perm
    exact sameScan_of_claimedOnce identical once perm

end Reordered

/-! ## A physical volume that moved to another group -/

/-- A labelled device is read as it was written. -/
theorem pvOf_written {pv : WrittenPv} {vg : VolumeGroup} {dev : R}
    (here : view dev = pv.device.toBlockRead)
    (parsed : (parseMetadata (Utf8.fromUtf8Lossy pv.text) >>= VolumeGroup.fromMetadata) = .ok vg)
    (place : Nat) : pvOf view (dev, place) = some ((dev, pv.label.uuid), some vg) := by
  have label : readPvLabelOf pv.device.toBlockRead place = .ok (some pv.label) := by
    obtain ⟨label, read, found⟩ := bind_eq_ok.mp (pv.requireLabel_device place)
    rw [read, orRefuse_eq_ok.mp found]
  have group : readGroupOf pv.device.toBlockRead pv.label place = .ok (some vg) := by
    obtain ⟨top, text, read⟩ := bind_eq_ok.mp parsed
    unfold readGroupOf
    rw [WrittenPv.readMetadataTextOf_device parsed, ok_bind]
    simp only [text, ok_bind, read]
  unfold pvOf
  simp only [here, label, group]

/-- The metadata of the group the volume left still names it. -/
def leftGroup : WrittenPv where
  letter := 0x61
  text := textOf [
    "left \x7b", "id = \"left\"", "seqno = 2", "extent_size = 1",
    "physical_volumes \x7b",
    "pv0 \x7b", "id = \"aaaaaaaa-aaaaaaaa-aaaaaaaa-aaaaaaaa\"", "pe_start = 4", "pe_count = 8", "\x7d",
    "pv1 \x7b", "id = \"bbbbbbbb-bbbbbbbb-bbbbbbbb-bbbbbbbb\"", "pe_start = 4", "pe_count = 8", "\x7d",
    "\x7d", "\x7d"]
  data := []
  some_text := by decide +kernel
  text_le := by decide +kernel
  no_nul := by decide +kernel
  data_lt := by decide

/-- The volume itself holds the metadata of the group it joined. -/
def joinedGroup : WrittenPv where
  letter := 0x62
  text := textOf [
    "joined \x7b", "id = \"joined\"", "seqno = 1", "extent_size = 1",
    "physical_volumes \x7b",
    "pv0 \x7b", "id = \"bbbbbbbb-bbbbbbbb-bbbbbbbb-bbbbbbbb\"", "pe_start = 4", "pe_count = 8", "\x7d",
    "\x7d", "\x7d"]
  data := []
  some_text := by decide +kernel
  text_le := by decide +kernel
  no_nul := by decide +kernel
  data_lt := by decide

def pvA : PhysicalVolume := ⟨"pv0", "aaaaaaaaaaaaaaaaaaaaaaaaaaaaaaaa", 2048, 8⟩

def pvB (name : String) : PhysicalVolume := ⟨name, "bbbbbbbbbbbbbbbbbbbbbbbbbbbbbbbb", 2048, 8⟩

def leftVg : VolumeGroup := ⟨"left", "left", 2, 512, [pvA, pvB "pv1"], [], oneSector_pos⟩

def joinedVg : VolumeGroup := ⟨"joined", "joined", 1, 512, [pvB "pv0"], [], oneSector_pos⟩

/-- The device of the volume that moved, and one of the group it left. -/
def movedView (moved : Bool) : BlockRead :=
  if moved then joinedGroup.device.toBlockRead else leftGroup.device.toBlockRead

theorem pvOf_left (place : Nat) : pvOf movedView (false, place) =
    some ((false, "aaaaaaaaaaaaaaaaaaaaaaaaaaaaaaaa"), some leftVg) := by
  have parsed : (parseMetadata (Utf8.fromUtf8Lossy leftGroup.text) >>=
      VolumeGroup.fromMetadata) = .ok leftVg := by
    rw [parseMetadata_ascii (by decide +kernel)]
    decide +kernel
  have here : movedView false = leftGroup.device.toBlockRead := rfl
  have uuid : leftGroup.label.uuid = "aaaaaaaaaaaaaaaaaaaaaaaaaaaaaaaa" := by decide +kernel
  rw [pvOf_written here parsed, uuid]

theorem pvOf_joined (place : Nat) : pvOf movedView (true, place) =
    some ((true, "bbbbbbbbbbbbbbbbbbbbbbbbbbbbbbbb"), some joinedVg) := by
  have parsed : (parseMetadata (Utf8.fromUtf8Lossy joinedGroup.text) >>=
      VolumeGroup.fromMetadata) = .ok joinedVg := by
    rw [parseMetadata_ascii (by decide +kernel)]
    decide +kernel
  have here : movedView true = joinedGroup.device.toBlockRead := rfl
  have uuid : joinedGroup.label.uuid = "bbbbbbbbbbbbbbbbbbbbbbbbbbbbbbbb" := by decide +kernel
  rw [pvOf_written here parsed, uuid]

theorem labelledPvs_left_first : labelledPvs movedView [false, true] =
    [((false, "aaaaaaaaaaaaaaaaaaaaaaaaaaaaaaaa"), some leftVg),
      ((true, "bbbbbbbbbbbbbbbbbbbbbbbbbbbbbbbb"), some joinedVg)] := by
  simp [labelledPvs, pvOf_left, pvOf_joined]

theorem labelledPvs_joined_first : labelledPvs movedView [true, false] =
    [((true, "bbbbbbbbbbbbbbbbbbbbbbbbbbbbbbbb"), some joinedVg),
      ((false, "aaaaaaaaaaaaaaaaaaaaaaaaaaaaaaaa"), some leftVg)] := by
  simp [labelledPvs, pvOf_left, pvOf_joined]

theorem metadataCopies_moved :
    metadataCopies movedView [false, true] = [leftVg, joinedVg] := by
  rw [metadataCopies, labelledPvs_left_first]
  rfl

theorem identicalCopies_moved : IdenticalCopies movedView [false, true] := by
  rw [IdenticalCopies, metadataCopies_moved]
  unfold Identical
  decide +kernel

/-- Given after the device of the group it left, the volume is taken by that group. -/
theorem volumeGroups_left_first : (lvmScan movedView [false, true]).volumeGroups =
    [⟨leftVg, [false, true], []⟩, ⟨joinedVg, [], ["pv0"]⟩] := by
  have groups := congrArg LvmScan.volumeGroups (lvmScan_eq movedView [false, true])
  rw [newestGroups, metadataCopies, labelledPvs_left_first] at groups
  refine groups.trans ?_
  decide +kernel

/-- Given first, it is in the group it joined. -/
theorem volumeGroups_joined_first : (lvmScan movedView [true, false]).volumeGroups =
    [⟨joinedVg, [true], []⟩, ⟨leftVg, [false], ["pv1"]⟩] := by
  have groups := congrArg LvmScan.volumeGroups (lvmScan_eq movedView [true, false])
  rw [newestGroups, metadataCopies, labelledPvs_joined_first] at groups
  refine groups.trans ?_
  decide +kernel

/-- Two orders of the same two devices put the volume that moved in two groups. -/
theorem moved_volume_follows_order :
    IdenticalCopies movedView [false, true] ∧ [false, true].Perm [true, false] ∧
      ¬ SameScan (lvmScan movedView [false, true]) (lvmScan movedView [true, false]) := by
  refine ⟨identicalCopies_moved, List.Perm.swap _ _ _, fun same => ?_⟩
  have members := (same.members ⟨joinedVg, [], ["pv0"]⟩
    (by rw [volumeGroups_left_first]; simp) ⟨joinedVg, [true], []⟩
    (by rw [volumeGroups_joined_first]; simp) rfl).1
  exact absurd members.length_eq (by decide)

/-- Alone, the volume is in the group it joined; with a device of the group it left, the
order decides. -/
theorem sameScan_iff_claimedOnce_moved :
    (∀ others, [true].Perm others →
      SameScan (lvmScan movedView [true]) (lvmScan movedView others)) ∧
    ¬ ∀ others, [false, true].Perm others →
      SameScan (lvmScan movedView [false, true]) (lvmScan movedView others) := by
  constructor
  · have copies : metadataCopies movedView [true] = [joinedVg] := by
      simp [metadataCopies, labelledPvs, pvOf_joined]
    have identical : IdenticalCopies movedView [true] := by
      rw [IdenticalCopies, copies]
      unfold Identical
      decide +kernel
    refine (sameScan_iff_claimedOnce identical).mpr ?_
    intro pv labelled first second left right _ _
    have same := left.1
    have also := right.1
    rw [copies, List.mem_singleton] at same also
    rw [same, also]
  · intro same
    have once := (sameScan_iff_claimedOnce identicalCopies_moved).mp same
    have labelled : ((true, "bbbbbbbbbbbbbbbbbbbbbbbbbbbbbbbb"), some joinedVg) ∈
        labelledPvs movedView [false, true] := by
      simp [labelledPvs, pvOf_left, pvOf_joined]
    have claimed := once _ labelled leftVg joinedVg
      (by rw [metadataCopies_moved]; unfold IsNewest; decide +kernel)
      (by rw [metadataCopies_moved]; unfold IsNewest; decide +kernel)
      (by decide +kernel) (by decide +kernel)
    revert claimed
    decide +kernel

end DiskPartitions
