import DiskPartitions.KeyedGroups
import DiskPartitions.LvmLabels
import DiskPartitions.MdScans

/-!
# Sorting devices into volume groups

A first pass reads every device's label and metadata and keeps the newest metadata of
each group.  A second pass gives every labelled device to the first group whose metadata
names its label, so a device that keeps no metadata of its own is placed too.
-/

namespace DiskPartitions

open Refusals KeyedGroups

/-! ## Scanning -/

/-- The physical volumes of one group that were given, and the keys of those that were
not. -/
structure VolumeGroupDevices (R : Type) where
  volumeGroup : VolumeGroup
  devices : List R
  missing : List String
  deriving DecidableEq

/-- Devices sorted by the volume group each belongs to. -/
structure LvmScan (R : Type) where
  volumeGroups : List (VolumeGroupDevices R)
  unclaimed : List R
  others : List R
  refused : List (R × LvmError)

/-- The newest metadata of a device, decoded. -/
def readGroupOf (dev : BlockRead) (label : PvLabel) (device : Nat) :
    Except LvmError (Option VolumeGroup) := do
  match ← readMetadataTextOf dev label device with
  | some text => do
      let top ← parseMetadata text
      let vg ← VolumeGroup.fromMetadata top
      .ok (some vg)
  | none => .ok none

/-- Metadata opens the group with its id or replaces it when its number is higher. -/
def volumeGrouping : Grouping VolumeGroup VolumeGroup String :=
  newestByKey VolumeGroup.id VolumeGroup.seqno

/-- What the first pass has met: the newest metadata of each group, the labelled devices
with their labels' UUIDs, and the devices that are no physical volume. -/
structure LvmFound (R : Type) where
  groups : List VolumeGroup
  pvs : List (R × String)
  others : List R
  refused : List (R × LvmError)

/-- The groups with one more metadata copy, when there is one. -/
def addGroup (groups : List VolumeGroup) : Option VolumeGroup → List VolumeGroup
  | some vg => volumeGrouping.insert vg groups
  | none => groups

variable {R : Type} (view : R → BlockRead)

/-- One more device, given at place `device.2`. -/
def scanDevice (found : LvmFound R) (device : R × Nat) : LvmFound R :=
  match readPvLabelOf (view device.1) device.2 with
  | .ok none => { found with others := found.others ++ [device.1] }
  | .error error => { found with refused := found.refused ++ [(device.1, error)] }
  | .ok (some label) =>
      match readGroupOf (view device.1) label device.2 with
      | .error error => { found with refused := found.refused ++ [(device.1, error)] }
      | .ok vg =>
          { found with
            groups := addGroup found.groups vg
            pvs := found.pvs ++ [(device.1, label.uuid)] }

/-- The metadata of a group names the UUID. -/
def VolumeGroup.names (vg : VolumeGroup) (uuid : String) : Bool :=
  vg.physicalVolumes.any fun pv => pv.uuid = uuid

/-- Give a labelled device to the first group that names it. -/
def claimDevice (groups : List VolumeGroup) (claimed : List (List (R × String)) × List R)
    (pv : R × String) : List (List (R × String)) × List R :=
  match groups.findIdx? fun vg => vg.names pv.2 with
  | some place => (claimed.1.modify place (· ++ [pv]), claimed.2)
  | none => (claimed.1, claimed.2 ++ [pv.1])

/-- A group with the devices given to it. -/
def groupDevices (group : VolumeGroup × List (R × String)) : VolumeGroupDevices R where
  volumeGroup := group.1
  devices := group.2.map Prod.fst
  missing := (group.1.physicalVolumes.filter fun pv =>
    !group.2.any fun given => given.2 = pv.uuid).map PhysicalVolume.name

/-- Sort devices into the volume groups they are physical volumes of. -/
def lvmScan (devices : List R) : LvmScan R :=
  let found := devices.zipIdx.foldl (scanDevice view)
    { groups := [], pvs := [], others := [], refused := [] }
  let (members, unclaimed) := found.pvs.foldl (claimDevice found.groups)
    (found.groups.map fun _ => [], [])
  { volumeGroups := (found.groups.zip members).map groupDevices
    unclaimed
    others := found.others
    refused := found.refused }

/-! ## What a device's label and metadata say of it -/

/-- The device with its label's UUID, and the metadata it keeps, when its label and its
metadata can be read. -/
def pvOf (device : R × Nat) : Option ((R × String) × Option VolumeGroup) :=
  match readPvLabelOf (view device.1) device.2 with
  | .ok (some label) =>
      match readGroupOf (view device.1) label device.2 with
      | .ok vg => some ((device.1, label.uuid), vg)
      | .error _ => none
  | _ => none

/-- The device, when it has no label. -/
def unlabelledOf (device : R × Nat) : Option R :=
  match readPvLabelOf (view device.1) device.2 with
  | .ok none => some device.1
  | _ => none

/-- The device with the error its label or its metadata gave. -/
def failedOf (device : R × Nat) : Option (R × LvmError) :=
  match readPvLabelOf (view device.1) device.2 with
  | .error error => some (device.1, error)
  | .ok none => none
  | .ok (some label) =>
      match readGroupOf (view device.1) label device.2 with
      | .error error => some (device.1, error)
      | .ok _ => none

variable {view}

theorem pvOf_eq_some {device : R × Nat} {pv : (R × String) × Option VolumeGroup}
    (found : pvOf view device = some pv) :
    pv.1.1 = device.1 ∧ ∃ label, readPvLabelOf (view device.1) device.2 = .ok (some label) ∧
      label.uuid = pv.1.2 ∧ readGroupOf (view device.1) label device.2 = .ok pv.2 := by
  unfold pvOf at found
  split at found
  next label labelled =>
    split at found
    next vg read =>
      cases found
      exact ⟨rfl, label, labelled, rfl, read⟩
    next => cases found
  next => cases found

theorem unlabelledOf_eq_some {device : R × Nat} {other : R}
    (found : unlabelledOf view device = some other) : other = device.1 := by
  unfold unlabelledOf at found
  split at found
  next => exact (Option.some.inj found).symm
  next => cases found

theorem failedOf_eq_some {device : R × Nat} {failed : R × LvmError}
    (found : failedOf view device = some failed) : failed.1 = device.1 := by
  unfold failedOf at found
  split at found
  next =>
    cases found
    rfl
  next => cases found
  next =>
    split at found
    next =>
      cases found
      rfl
    next => cases found

variable (view)

/-- The labelled devices, each with the metadata it keeps. -/
def labelledPvs (devices : List R) : List ((R × String) × Option VolumeGroup) :=
  devices.zipIdx.filterMap (pvOf view)

/-- The metadata copies the devices keep, in the order they are met. -/
def metadataCopies (devices : List R) : List VolumeGroup :=
  (labelledPvs view devices).filterMap Prod.snd

/-- The newest metadata of each group. -/
def newestGroups (devices : List R) : List VolumeGroup :=
  volumeGrouping.gather (metadataCopies view devices)

/-- The place of the first group that names the UUID. -/
def claimant (groups : List VolumeGroup) (pv : R × String) : Option Nat :=
  groups.findIdx? fun vg => vg.names pv.2

/-- The first pass sorts each device by its own label and metadata. -/
theorem foldl_scanDevice (devices : List R) :
    devices.zipIdx.foldl (scanDevice view) { groups := [], pvs := [], others := [], refused := [] } =
      { groups := newestGroups view devices
        pvs := (labelledPvs view devices).map Prod.fst
        others := devices.zipIdx.filterMap (unlabelledOf view)
        refused := devices.zipIdx.filterMap (failedOf view) } := by
  unfold newestGroups metadataCopies labelledPvs
  induction devices.zipIdx using List.reverseRecOn with
  | nil => rfl
  | append_singleton given device ih =>
      rw [List.foldl_append, ih, List.foldl_cons, List.foldl_nil]
      rcases labelled : readPvLabelOf (view device.1) device.2 with error | _ | label
      · simp [scanDevice, pvOf, unlabelledOf, failedOf, labelled]
      · simp [scanDevice, pvOf, unlabelledOf, failedOf, labelled]
      · rcases read : readGroupOf (view device.1) label device.2 with error | _ | vg
        · simp [scanDevice, pvOf, unlabelledOf, failedOf, labelled, read]
        · simp [scanDevice, pvOf, unlabelledOf, failedOf, labelled, read, addGroup]
        · simp [scanDevice, pvOf, unlabelledOf, failedOf, labelled, read, addGroup,
            Grouping.gather]

/-- The second pass deals each labelled device to its claimant. -/
theorem foldl_claimDevice (groups : List VolumeGroup) (pvs : List (R × String)) :
    pvs.foldl (claimDevice groups) (groups.map fun _ => [], []) =
      ((List.range groups.length).map fun place =>
        pvs.filter fun pv => claimant groups pv = some place,
        (pvs.filter fun pv => claimant groups pv = none).map Prod.fst) := by
  have dealt : ∀ (pvs : List (R × String)) (claimed : List (List (R × String)) × List R),
      pvs.foldl (claimDevice groups) claimed =
        (pvs.foldl (deal (claimant groups)) claimed.1,
          claimed.2 ++ (pvs.filter fun pv => claimant groups pv = none).map Prod.fst) := by
    intro pvs
    induction pvs with
    | nil => simp
    | cons pv pvs ih =>
        intro claimed
        rw [List.foldl_cons, List.foldl_cons, ih]
        cases found : claimant groups pv with
        | none =>
            have step : claimDevice groups claimed pv = (claimed.1, claimed.2 ++ [pv.1]) := by
              unfold claimant at found
              simp only [claimDevice, found]
            simp [step, deal, found]
        | some place =>
            have step : claimDevice groups claimed pv =
                (claimed.1.modify place (· ++ [pv]), claimed.2) := by
              unfold claimant at found
              simp only [claimDevice, found]
            simp [step, deal, found]
  rw [dealt, List.map_const', foldl_deal, List.nil_append]

/-- The scan, from the devices' own labels and metadata. -/
theorem lvmScan_eq (devices : List R) :
    lvmScan view devices =
      { volumeGroups := (newestGroups view devices).zipIdx.map fun group =>
          groupDevices (group.1, ((labelledPvs view devices).map Prod.fst).filter fun pv =>
            claimant (newestGroups view devices) pv = some group.2)
        unclaimed := (((labelledPvs view devices).map Prod.fst).filter fun pv =>
          claimant (newestGroups view devices) pv = none).map Prod.fst
        others := devices.zipIdx.filterMap (unlabelledOf view)
        refused := devices.zipIdx.filterMap (failedOf view) } := by
  unfold lvmScan
  simp only [foldl_scanDevice, foldl_claimDevice]
  congr 1
  rw [List.zipIdx_eq_zip_range', ← List.range_eq_range', List.zip_map_right, List.map_map]
  rfl

/-! ## What the scan gives -/

/-- What sorting devices into volume groups gives: every device in exactly one place, its
order kept there, one group for each id with the first of its newest metadata, and in each
group only devices whose label that metadata names. -/
structure SortsVolumes (view : R → BlockRead) (devices : List R) (found : LvmScan R) : Prop where
  places : (found.volumeGroups.flatMap VolumeGroupDevices.devices ++ found.unclaimed ++
    found.others ++ found.refused.map Prod.fst).Perm devices
  grouped : ∀ group ∈ found.volumeGroups, group.devices.Sublist devices
  unclaimed : found.unclaimed.Sublist devices
  others : found.others.Sublist devices
  refused : (found.refused.map Prod.fst).Sublist devices
  distinct : (found.volumeGroups.map fun group => group.volumeGroup.id).Nodup
  newest : ∀ group ∈ found.volumeGroups, FirstHighest VolumeGroup.seqno
    ((metadataCopies view devices).filter fun vg => vg.id = group.volumeGroup.id)
    group.volumeGroup
  named : ∀ group ∈ found.volumeGroups, ∀ dev ∈ group.devices, ∃ place label,
    readPvLabelOf (view dev) place = .ok (some label) ∧
      group.volumeGroup.names label.uuid = true

/-- Every device is labelled, without a label, or refused. -/
theorem perm_scanned (devices : List (R × Nat)) :
    ((devices.filterMap (pvOf view)).map (fun pv => pv.1.1) ++
      devices.filterMap (unlabelledOf view) ++
      (devices.filterMap (failedOf view)).map Prod.fst).Perm (devices.map Prod.fst) := by
  induction devices with
  | nil => rfl
  | cons device rest ih =>
      have failedHere : ∀ error, pvOf view device = none → unlabelledOf view device = none →
          failedOf view device = some (device.1, error) →
          (((device :: rest).filterMap (pvOf view)).map (fun pv => pv.1.1) ++
            (device :: rest).filterMap (unlabelledOf view) ++
            ((device :: rest).filterMap (failedOf view)).map Prod.fst).Perm
              ((device :: rest).map Prod.fst) := by
        intro error pv unlabelled failed
        rw [List.filterMap_cons_none pv, List.filterMap_cons_none unlabelled,
          List.filterMap_cons_some failed, List.map_cons, List.map_cons]
        exact List.perm_middle.trans (ih.cons _)
      rcases labelled : readPvLabelOf (view device.1) device.2 with error | _ | label
      · exact failedHere error (by simp [pvOf, labelled]) (by simp [unlabelledOf, labelled])
          (by simp [failedOf, labelled])
      · simp only [List.filterMap_cons, pvOf, unlabelledOf, failedOf, labelled, List.map_cons]
        rw [List.append_assoc, List.cons_append]
        refine List.perm_middle.trans (.cons _ ?_)
        rw [← List.append_assoc]
        exact ih
      · rcases read : readGroupOf (view device.1) label device.2 with error | vg
        · exact failedHere error (by simp [pvOf, labelled, read])
            (by simp [unlabelledOf, labelled]) (by simp [failedOf, labelled, read])
        · simp only [List.filterMap_cons, pvOf, unlabelledOf, failedOf, labelled, read,
            List.map_cons, List.cons_append]
          exact ih.cons _

/-- The claimants of the labelled devices share them out. -/
theorem perm_claimed (groups : List VolumeGroup) (pvs : List (R × String)) :
    (((List.range groups.length).flatMap fun place =>
      pvs.filter fun pv => claimant groups pv = some place) ++
        pvs.filter fun pv => claimant groups pv = none).Perm pvs := by
  have keys : (((List.range groups.length).map some ++ [none]).flatMap fun place =>
      pvs.filter fun pv => claimant groups pv = place).Perm pvs := by
    refine Grouping.perm_flatMap_filter (claimant groups) ?_ ?_
    · rw [List.nodup_append]
      refine ⟨List.nodup_range.map (Option.some_injective _), by simp, ?_⟩
      intro place listed other last
      obtain ⟨_, _, rfl⟩ := List.mem_map.mp listed
      rw [List.mem_singleton.mp last]
      exact Option.some_ne_none _
    · intro pv _
      cases found : claimant groups pv with
      | none => simp
      | some place =>
          have bound := (List.findIdx?_eq_some_iff_getElem.mp found).1
          simp [bound]
  rwa [List.flatMap_append, List.flatMap_map, List.flatMap_singleton] at keys

theorem sortsVolumes_lvmScan (devices : List R) :
    SortsVolumes view devices (lvmScan view devices) := by
  have gathered := volumeGrouping.gathered_gather (metadataCopies view devices)
  have given : devices.zipIdx.map Prod.fst = devices := List.zipIdx_map_fst 0 devices
  have kept : ∀ keep : (R × String) → Bool,
      ((((labelledPvs view devices).map Prod.fst).filter keep).map Prod.fst).Sublist devices := by
    intro keep
    have labelled : (((labelledPvs view devices).map Prod.fst).map Prod.fst).Sublist devices := by
      have picked : ((devices.zipIdx.filterMap (pvOf view)).map fun pv => pv.1.1).Sublist _ :=
        map_filterMap_sublist fun given item found => (pvOf_eq_some found).1
      rw [given] at picked
      rwa [List.map_map]
    exact (List.filter_sublist.map _).trans labelled
  have member : ∀ {group}, group ∈ (lvmScan view devices).volumeGroups →
      ∃ vg place, (newestGroups view devices)[place]? = some vg ∧
        group = groupDevices (vg, ((labelledPvs view devices).map Prod.fst).filter fun pv =>
          claimant (newestGroups view devices) pv = some place) := by
    intro group listed
    rw [lvmScan_eq] at listed
    obtain ⟨⟨vg, place⟩, own, rfl⟩ := List.mem_map.mp listed
    exact ⟨vg, place, List.mem_zipIdx_iff_getElem?.mp own, rfl⟩
  constructor
  case places =>
    rw [lvmScan_eq]
    have flat : ((newestGroups view devices).zipIdx.map fun group =>
        groupDevices (group.1, ((labelledPvs view devices).map Prod.fst).filter fun pv =>
          claimant (newestGroups view devices) pv = some group.2)).flatMap
            VolumeGroupDevices.devices =
        ((List.range (newestGroups view devices).length).flatMap fun place =>
          ((labelledPvs view devices).map Prod.fst).filter fun pv =>
            claimant (newestGroups view devices) pv = some place).map Prod.fst := by
      rw [List.range_eq_range', ← List.zipIdx_map_snd, List.flatMap_map, List.flatMap_map,
        List.map_flatMap]
      rfl
    have all := perm_scanned view devices.zipIdx
    rw [given] at all
    refine List.Perm.trans ?_ all
    refine (List.Perm.append_right _ ?_).append_right _
    rw [flat, ← List.map_append]
    have shared := (perm_claimed (newestGroups view devices)
      ((labelledPvs view devices).map Prod.fst)).map Prod.fst
    rwa [List.map_map] at shared
  case grouped =>
    intro group listed
    obtain ⟨vg, place, _, rfl⟩ := member listed
    exact kept _
  case unclaimed =>
    rw [lvmScan_eq]
    exact kept _
  case others =>
    rw [lvmScan_eq]
    have picked : ((devices.zipIdx.filterMap (unlabelledOf view)).map id).Sublist _ :=
      map_filterMap_sublist fun given item found => unlabelledOf_eq_some found
    rwa [given, List.map_id] at picked
  case refused =>
    rw [lvmScan_eq]
    have picked : ((devices.zipIdx.filterMap (failedOf view)).map Prod.fst).Sublist _ :=
      map_filterMap_sublist fun given item found => failedOf_eq_some found
    rwa [given] at picked
  case distinct =>
    have ids : (lvmScan view devices).volumeGroups.map (fun group => group.volumeGroup.id) =
        (newestGroups view devices).map VolumeGroup.id := by
      rw [lvmScan_eq, List.map_map]
      calc (newestGroups view devices).zipIdx.map _
          = ((newestGroups view devices).zipIdx.map Prod.fst).map VolumeGroup.id := by
            rw [List.map_map]
            rfl
        _ = (newestGroups view devices).map VolumeGroup.id := by rw [List.zipIdx_map_fst]
    rw [ids]
    exact gathered.nodup
  case newest =>
    intro group listed
    obtain ⟨vg, place, own, rfl⟩ := member listed
    exact firstHighest_of_mem_gather (List.mem_of_getElem? own)
  case named =>
    intro group listed dev given
    obtain ⟨vg, place, own, rfl⟩ := member listed
    obtain ⟨pv, placed, rfl⟩ := List.mem_map.mp given
    obtain ⟨labelled, claimed⟩ := List.mem_filter.mp placed
    obtain ⟨whole, found, rfl⟩ := List.mem_map.mp labelled
    obtain ⟨device, _, read⟩ := List.mem_filterMap.mp found
    obtain ⟨here, label, carried, uuid, _⟩ := pvOf_eq_some read
    refine ⟨device.2, label, here ▸ carried, ?_⟩
    obtain ⟨bound, named, _⟩ := List.findIdx?_eq_some_iff_getElem.mp (of_decide_eq_true claimed)
    rw [List.getElem?_eq_getElem bound] at own
    cases own
    rw [uuid]
    exact named

/-- Both scans put every device in one place, keep the order devices were given in, and
report of each group what opening it goes by. -/
theorem scans_sort (devices : List R) :
    SortsMembers view devices (mdScan view devices) ∧
      SortsVolumes view devices (lvmScan view devices) :=
  ⟨sortsMembers_mdScan view devices, sortsVolumes_lvmScan view devices⟩

end DiskPartitions
