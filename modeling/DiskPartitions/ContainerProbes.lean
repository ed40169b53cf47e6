import DiskPartitions.ReorderedScans
import DiskPartitions.SegmentArrays

/-!
# What a device is a piece of

A probe of one device says which array or volume group it is a piece of, looking for an `md`
superblock first.  Devices sorted into arrays, and the rest then into volume groups, end up each
where the probe of that device alone says.
-/

namespace DiskPartitions

open Refusals KeyedGroups

/-- A volume-management container found on a device. -/
inductive Container
  | mdMember (arrayUuid : List UInt8) (level : Int)
  | lvmPv (uuid : String)
  deriving DecidableEq, Repr

/-- Why a container that is there could not be read. -/
inductive ContainerError
  | md (error : MdError)
  | lvm (error : LvmError)

/-- The superblock of a device. -/
def readSuperblock (dev : BlockRead) : Except MdError (Option MdSuperblock) :=
  readSuperblockOf dev 0

/-- The label of a device. -/
def readPvLabel (dev : BlockRead) : Except LvmError (Option PvLabel) :=
  readPvLabelOf dev 0

/-- Which container the device is, if any. -/
def detect (dev : BlockRead) : Except ContainerError (Option Container) := do
  match ← (readSuperblock dev).mapError .md with
  | some sb => .ok (some (.mdMember sb.arrayUuid sb.level))
  | none =>
      match ← (readPvLabel dev).mapError .lvm with
      | some label => .ok (some (.lvmPv label.uuid))
      | none => .ok none

/-! ## The answers -/

/-- The device is a member of the array. -/
def findsMember (uuid : List UInt8) : Except ContainerError (Option Container) → Bool
  | .ok (some (.mdMember own _)) => own = uuid
  | _ => false

/-- The device has a superblock that is damaged, or failed before one was found. -/
def findsBadMember : Except ContainerError (Option Container) → Bool
  | .error (.md _) => true
  | _ => false

/-- The device has a label, or failed before one was found. -/
def findsLabel : Except ContainerError (Option Container) → Bool
  | .ok (some (.lvmPv _)) => true
  | .error (.lvm _) => true
  | _ => false

def findsNothing : Except ContainerError (Option Container) → Bool
  | .ok none => true
  | _ => false

section Answers

variable {dev : BlockRead}

theorem detect_of_member {place : Nat} {sb : MdSuperblock}
    (read : readSuperblockOf dev place = .ok (some sb)) :
    detect dev = .ok (some (.mdMember sb.arrayUuid sb.level)) := by
  rw [detect, readSuperblock, (alike_readSuperblockOf dev place 0).eq_ok read]
  rfl

theorem detect_of_failed {place : Nat} {error : MdError}
    (read : readSuperblockOf dev place = .error error) :
    ∃ failure, detect dev = .error (.md failure) := by
  rcases (alike_readSuperblockOf dev place 0).cases with ⟨_, here, _⟩ | ⟨_, failure, _, there⟩
  · rw [read] at here
    cases here
  · refine ⟨failure, ?_⟩
    rw [detect, readSuperblock, there]
    rfl

section Unassembled

variable {place : Nat} (read : readSuperblockOf dev place = .ok none) {other : Nat}

include read

theorem detect_of_unlabelled (label : readPvLabelOf dev other = .ok none) :
    detect dev = .ok none := by
  rw [detect, readSuperblock, (alike_readSuperblockOf dev place 0).eq_ok read, readPvLabel,
    (alike_readPvLabelOf dev other 0).eq_ok label]
  rfl

theorem detect_of_labelled {found : PvLabel} (label : readPvLabelOf dev other = .ok (some found)) :
    detect dev = .ok (some (.lvmPv found.uuid)) := by
  rw [detect, readSuperblock, (alike_readSuperblockOf dev place 0).eq_ok read, readPvLabel,
    (alike_readPvLabelOf dev other 0).eq_ok label]
  rfl

theorem detect_of_badLabel {error : LvmError} (label : readPvLabelOf dev other = .error error) :
    ∃ failure, detect dev = .error (.lvm failure) := by
  rcases (alike_readPvLabelOf dev other 0).cases with ⟨_, here, _⟩ | ⟨_, failure, _, there⟩
  · rw [label] at here
    cases here
  · refine ⟨failure, ?_⟩
    rw [detect, readSuperblock, (alike_readSuperblockOf dev place 0).eq_ok read, readPvLabel,
      there]
    rfl

/-- Of a device without a superblock a probe says nothing of arrays. -/
theorem detect_unassembled : detect dev = .ok none ∨
    (∃ uuid, detect dev = .ok (some (.lvmPv uuid))) ∨
    ∃ failure, detect dev = .error (.lvm failure) := by
  rcases label : readPvLabelOf dev 0 with error | _ | found
  · exact .inr (.inr (detect_of_badLabel read label))
  · exact .inl (detect_of_unlabelled read label)
  · exact .inr (.inl ⟨_, detect_of_labelled read label⟩)

end Unassembled

end Answers

/-! ## Where a device ends up -/

variable {R : Type}

/-- Picking the devices that are kept, whatever their places, filters the devices. -/
theorem map_filterMap_zipIdx {α : Type} {pick : R × Nat → Option α} {front : α → R}
    {keep : R → Bool}
    (picks : ∀ dev place, (pick (dev, place)).map front = if keep dev then some dev else none)
    (devices : List R) : (devices.zipIdx.filterMap pick).map front = devices.filter keep := by
  rw [List.map_filterMap, filterMap_zipIdx fun dev here there => by rw [picks, picks]]
  simp only [picks]
  rw [← List.filterMap_eq_filter]
  rfl

variable (view : R → BlockRead)

/-- The device has no superblock. -/
def isUnassembled (dev : R) : Bool := (readSuperblock (view dev)).toOption = some none

theorem others_mdScan (devices : List R) :
    (mdScan view devices).others = devices.filter (isUnassembled view) := by
  rw [mdScan_eq]
  dsimp only
  rw [← map_filterMap_zipIdx _ devices, List.map_id]
  intro dev place
  rw [Option.map_id]
  unfold otherOf isUnassembled readSuperblock
  dsimp only
  rcases (alike_readSuperblockOf (view dev) place 0).cases with ⟨sb, here, there⟩ |
    ⟨_, _, here, there⟩
  · rw [here, there]
    cases sb with
    | none => rfl
    | some sb => rfl
  · rw [here, there]
    rfl

/-- A label and the lack of one are looked for on devices without a superblock only. -/
theorem filter_unassembled {keep : Except ContainerError (Option Container) → Bool}
    (member : ∀ uuid level, keep (.ok (some (.mdMember uuid level))) = false)
    (failed : ∀ failure, keep (.error (.md failure)) = false) (devices : List R) :
    (devices.filter (isUnassembled view)).filter (fun dev => keep (detect (view dev))) =
      devices.filter fun dev => keep (detect (view dev)) := by
  rw [List.filter_filter]
  refine List.filter_congr fun dev _ => ?_
  rcases read : readSuperblockOf (view dev) 0 with error | _ | sb
  · obtain ⟨failure, found⟩ := detect_of_failed read
    rw [found, failed, Bool.false_and]
  · have unassembled : isUnassembled view dev = true := by
      unfold isUnassembled readSuperblock
      rw [read]
      rfl
    rw [unassembled, Bool.and_true]
  · rw [detect_of_member read, member, Bool.false_and]

/-- Devices sorted into arrays, and the rest into volume groups, are each where the probe of the
device alone says. -/
structure FollowsDetect (devices : List R) (arrays : MdScan R) (volumes : LvmScan R) : Prop where
  members : ∀ group ∈ arrays.arrays, group.members =
    devices.filter fun dev => findsMember group.arrayUuid (detect (view dev))
  grouped : ∀ dev ∈ devices, ∀ uuid level,
    detect (view dev) = .ok (some (.mdMember uuid level)) →
      ∃ group ∈ arrays.arrays, group.arrayUuid = uuid
  refused : arrays.refused.map Prod.fst = devices.filter fun dev => findsBadMember (detect (view dev))
  labelled : (volumes.volumeGroups.flatMap VolumeGroupDevices.devices ++ volumes.unclaimed ++
    volumes.refused.map Prod.fst).Perm (devices.filter fun dev => findsLabel (detect (view dev)))
  named : ∀ group ∈ volumes.volumeGroups, ∀ dev ∈ group.devices, ∃ uuid,
    detect (view dev) = .ok (some (.lvmPv uuid)) ∧ group.volumeGroup.names uuid = true
  unnamed : ∀ dev ∈ volumes.unclaimed, ∃ uuid, detect (view dev) = .ok (some (.lvmPv uuid)) ∧
    ∀ group ∈ volumes.volumeGroups, group.volumeGroup.names uuid = false
  others : volumes.others = devices.filter fun dev => findsNothing (detect (view dev))

theorem members_follow {devices : List R} {group : MdGroup R}
    (listed : group ∈ (mdScan view devices).arrays) : group.members =
      devices.filter fun dev => findsMember group.arrayUuid (detect (view dev)) := by
  rw [mdScan_eq] at listed
  have gathered := (mdGrouping R).gathered_gather (devices.zipIdx.filterMap (memberOf view))
  rw [(own_of_madeOf (gathered.made group listed)).1, Grouping.itemsOf, List.filter_filterMap]
  apply map_filterMap_zipIdx
  intro dev place
  rcases read : readSuperblockOf (view dev) place with error | _ | sb
  · obtain ⟨failure, found⟩ := detect_of_failed read
    simp [memberOf, read, found, findsMember]
  · rcases detect_unassembled read with found | ⟨uuid, found⟩ | ⟨failure, found⟩
    · simp [memberOf, read, found, findsMember]
    · simp [memberOf, read, found, findsMember]
    · simp [memberOf, read, found, findsMember]
  · by_cases own : sb.arrayUuid = group.arrayUuid
    · simp [memberOf, read, detect_of_member read, findsMember, mdGrouping, own]
    · simp [memberOf, read, detect_of_member read, findsMember, mdGrouping, own]

theorem refused_mdScan (devices : List R) : (mdScan view devices).refused.map Prod.fst =
    devices.filter fun dev => findsBadMember (detect (view dev)) := by
  rw [mdScan_eq]
  apply map_filterMap_zipIdx
  intro dev place
  rcases read : readSuperblockOf (view dev) place with error | _ | sb
  · obtain ⟨failure, found⟩ := detect_of_failed read
    simp [refusedOf, read, found, findsBadMember]
  · rcases detect_unassembled read with found | ⟨uuid, found⟩ | ⟨failure, found⟩
    · simp [refusedOf, read, found, findsBadMember]
    · simp [refusedOf, read, found, findsBadMember]
    · simp [refusedOf, read, found, findsBadMember]
  · simp [refusedOf, read, detect_of_member read, findsBadMember]

/-- A device that is found a member has its array among the groups. -/
theorem exists_group_of_detect {devices : List R} {dev : R} (given : dev ∈ devices)
    {uuid : List UInt8} {level : Int}
    (found : detect (view dev) = .ok (some (.mdMember uuid level))) :
    ∃ group ∈ (mdScan view devices).arrays, group.arrayUuid = uuid := by
  rcases read : readSuperblockOf (view dev) 0 with error | _ | sb
  · obtain ⟨failure, other⟩ := detect_of_failed read
    rw [found] at other
    cases other
  · rcases detect_unassembled read with other | ⟨_, other⟩ | ⟨_, other⟩
    · rw [found] at other
      cases other
    · rw [found] at other
      cases other
    · rw [found] at other
      cases other
  · rw [detect_of_member read] at found
    cases found
    obtain ⟨place, numbered⟩ := List.mem_iff_getElem?.mp given
    have carried : memberOf view (dev, place) = some (dev, sb) :=
      (memberOf_eq_some view).mpr ⟨(alike_readSuperblockOf (view dev) 0 place).eq_ok read, rfl⟩
    have listed : (dev, sb) ∈ devices.zipIdx.filterMap (memberOf view) :=
      List.mem_filterMap.mpr ⟨_, List.mem_zipIdx_iff_getElem?.mpr numbered, carried⟩
    have gathered := (mdGrouping R).gathered_gather (devices.zipIdx.filterMap (memberOf view))
    obtain ⟨group, grouped, own⟩ := List.mem_flatMap.mp (gathered.perm.mem_iff.mpr listed)
    rw [mdScan_eq]
    exact ⟨group, grouped, (of_decide_eq_true (List.mem_filter.mp own).2).symm⟩

theorem read_of_unassembled {dev : R} (unassembled : isUnassembled view dev = true) :
    readSuperblockOf (view dev) 0 = .ok none := by
  have read : (readSuperblock (view dev)).toOption = some none := of_decide_eq_true unassembled
  unfold readSuperblock at read
  cases found : readSuperblockOf (view dev) 0 with
  | error failure =>
      rw [found] at read
      cases read
  | ok sb =>
      rw [found] at read
      exact congrArg Except.ok (Option.some.inj read)

/-- The devices that are no members and have no label either. -/
theorem others_lvmScan (devices : List R) : (lvmScan view (mdScan view devices).others).others =
    devices.filter fun dev => findsNothing (detect (view dev)) := by
  have unlabelled : (lvmScan view (mdScan view devices).others).others =
      (mdScan view devices).others.filter fun dev =>
        (readPvLabel (view dev)).toOption = some none := by
    rw [lvmScan_eq, ← map_filterMap_zipIdx _ (mdScan view devices).others, List.map_id]
    intro dev place
    rw [Option.map_id]
    unfold unlabelledOf readPvLabel
    dsimp only
    rcases (alike_readPvLabelOf (view dev) place 0).cases with ⟨label, here, there⟩ |
      ⟨_, _, here, there⟩
    · rw [here, there]
      cases label with
      | none => rfl
      | some label => rfl
    · rw [here, there]
      rfl
  rw [unlabelled, others_mdScan, ← filter_unassembled view (fun _ _ => rfl) fun _ => rfl]
  refine List.filter_congr fun dev kept => ?_
  have read := read_of_unassembled view (List.mem_filter.mp kept).2
  unfold readPvLabel
  rcases label : readPvLabelOf (view dev) 0 with error | _ | found
  · obtain ⟨failure, answer⟩ := detect_of_badLabel read label
    rw [answer]
    rfl
  · rw [detect_of_unlabelled read label]
    rfl
  · rw [detect_of_labelled read label]
    rfl

/-- The devices that have a label, or failed before one was found. -/
theorem perm_labelled (devices : List R) :
    ((lvmScan view (mdScan view devices).others).volumeGroups.flatMap
      VolumeGroupDevices.devices ++ (lvmScan view (mdScan view devices).others).unclaimed ++
    (lvmScan view (mdScan view devices).others).refused.map Prod.fst).Perm
      (devices.filter fun dev => findsLabel (detect (view dev))) := by
  have sorted := (@sortsVolumes_lvmScan _ view (mdScan view devices).others).places
  have parted := List.filter_append_perm (fun dev => findsLabel (detect (view dev)))
    (mdScan view devices).others
  have rest : ((mdScan view devices).others.filter fun dev => !findsLabel (detect (view dev))) =
      (mdScan view devices).others.filter fun dev => findsNothing (detect (view dev)) := by
    refine List.filter_congr fun dev kept => ?_
    rw [others_mdScan] at kept
    rcases detect_unassembled (read_of_unassembled view (List.mem_filter.mp kept).2) with found |
      ⟨uuid, found⟩ | ⟨failure, found⟩
    · rw [found]
      rfl
    · rw [found]
      rfl
    · rw [found]
      rfl
  have labels := @filter_unassembled _ view findsLabel (fun _ _ => rfl) (fun _ => rfl) devices
  have nothing := @filter_unassembled _ view findsNothing (fun _ _ => rfl) (fun _ => rfl)
    devices
  rw [rest, others_mdScan, labels, nothing, ← others_lvmScan, ← others_mdScan] at parted
  refine (List.perm_append_right_iff (lvmScan view (mdScan view devices).others).others).mp ?_
  refine List.Perm.trans ?_ (sorted.trans parted.symm)
  have swapped : ∀ front middle back : List R,
      (front ++ back ++ middle).Perm (front ++ middle ++ back) := by
    intro front middle back
    rw [List.append_assoc, List.append_assoc]
    exact List.perm_append_comm.append_left front
  exact swapped _ _ _

/-- Assemble the array from the members of its group. -/
def MdGroup.assemble (group : MdGroup R) : Except MdError MdArray :=
  DiskPartitions.assemble (group.members.map view)

/-- The members are none, are not of one array, or their superblocks cannot be read. -/
def MdError.AboutMembers : MdError → Prop
  | .block _ => True
  | .noSuperblock _ => True
  | .badChecksum _ _ _ => True
  | .mixedArrays _ => True
  | .empty => True
  | _ => False

theorem never_placeMember {n newest : Nat} {slots : List (Option Member)}
    {found : Nat × BlockRead × MdSuperblock} :
    Never MdError.AboutMembers (placeMember n newest slots found) := by
  obtain ⟨_, dev, sb⟩ := found
  unfold placeMember
  dsimp only
  cases sb.role with
  | active slot =>
      dsimp only
      split
      next => exact never_ok _
      next =>
        split
        next => exact never_ok _
        next => exact (never_refuseIf not_false).bind fun _ _ => never_ok _
  | spare => exact never_ok _
  | faulty => exact never_ok _
  | journal => exact never_ok _

theorem never_needMembers {level : Int} {slots : List (Option Member)} {needed : Nat} :
    Never MdError.AboutMembers (needMembers level slots needed) :=
  never_refuseIf not_false

theorem never_needsChunk {chunk : Nat} : Never MdError.AboutMembers (needsChunk chunk) :=
  never_refuseIf not_false

theorem never_requireCopies {geo : Raid10} {d : Nat} {slots : List (Option Member)}
    (chunks : List Nat) : Never MdError.AboutMembers (requireCopies geo d slots chunks) := by
  induction chunks with
  | nil => exact never_ok _
  | cons c rest ih => exact (never_refuseIf not_false).bind fun _ _ => ih

theorem never_levelGeometry {lead : MdSuperblock} {slots : List (Option Member)} :
    Never MdError.AboutMembers (levelGeometry lead slots) := by
  unfold levelGeometry
  split
  next =>
    refine never_needMembers.bind fun _ _ => ?_
    refine (Never.foldlM (fun state item => ?_) _ _).bind fun _ _ => never_ok _
    exact (never_refuseIf not_false).bind fun _ _ => never_ok _
  next =>
    split
    next => exact never_needMembers.bind fun _ _ => never_ok _
    next =>
      split
      next =>
        refine never_needMembers.bind fun _ _ => never_needsChunk.bind fun _ _ => ?_
        exact (never_refuseIf not_false).bind fun _ _ => never_ok _
      next =>
        split
        next =>
          refine never_needsChunk.bind fun _ _ => ?_
          refine (never_refuseIf not_false).bind fun _ _ => ?_
          refine (never_refuseIf not_false).bind fun _ _ => ?_
          refine (never_requireCopies _).bind fun _ _ => ?_
          exact (never_refuseIf not_false).bind fun _ _ => never_ok _
        next =>
          split
          next =>
            refine never_needsChunk.bind fun _ _ => ?_
            refine (never_refuseIf not_false).bind fun _ _ => ?_
            refine (never_refuseIf not_false).bind fun _ _ => ?_
            refine (never_refuseIf not_false).bind fun _ _ => ?_
            refine never_needMembers.bind fun _ _ => ?_
            exact (never_refuseIf not_false).bind fun _ _ => never_ok _
          next => exact never_error not_false

theorem never_assembleLed {found : List (Nat × BlockRead × MdSuperblock)} {lead : MdSuperblock} :
    Never MdError.AboutMembers (assembleLed found lead) := by
  refine (never_refuseIf not_false).bind fun _ _ => (never_refuseIf not_false).bind fun _ _ => ?_
  refine (Never.foldlM (fun _ _ => never_placeMember) _ _).bind fun _ _ => ?_
  refine never_levelGeometry.bind fun _ _ => ?_
  exact (never_refuseIf not_false).bind fun _ _ => never_ok _

end DiskPartitions
