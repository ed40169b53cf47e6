import DiskPartitions.LeadSuperblocks

/-!
# Sorting devices into `md` arrays

A scan reads every device's superblock once and puts the device into the group of its
array, among the devices without one, or among those whose superblock was refused.  A
group's superblock is replaced by a newer one as its members are met.
-/

namespace DiskPartitions

open Refusals KeyedGroups

/-! ## Scanning -/

/-- The members of one array, and the newest superblock among them. -/
structure MdGroup (R : Type) where
  arrayUuid : List UInt8
  superblock : MdSuperblock
  members : List R

/-- Devices sorted by the array each is a member of. -/
structure MdScan (R : Type) where
  arrays : List (MdGroup R)
  others : List R
  refused : List (R × MdError)

/-- A device with a superblock opens the group of its array or joins it. -/
def mdGrouping (R : Type) : Grouping (R × MdSuperblock) (MdGroup R) (List UInt8) where
  itemKey item := item.2.arrayUuid
  groupKey := MdGroup.arrayUuid
  start item :=
    { arrayUuid := item.2.arrayUuid
      superblock := item.2
      members := [item.1] }
  merge group item :=
    { group with
      superblock :=
        if group.superblock.events < item.2.events then item.2 else group.superblock
      members := group.members ++ [item.1] }
  groupKey_start _ := rfl
  groupKey_merge _ _ _ := rfl

variable {R : Type} (view : R → BlockRead)

/-- One more device, given at place `device.2`. -/
def scanMember (found : MdScan R) (device : R × Nat) : MdScan R :=
  match readSuperblockOf (view device.1) device.2 with
  | .ok none => { found with others := found.others ++ [device.1] }
  | .error error => { found with refused := found.refused ++ [(device.1, error)] }
  | .ok (some sb) =>
      { found with arrays := (mdGrouping R).insert (device.1, sb) found.arrays }

/-- Sort devices into the arrays they are members of. -/
def mdScan (devices : List R) : MdScan R :=
  devices.zipIdx.foldl (scanMember view) { arrays := [], others := [], refused := [] }

/-! ## What a device's superblock says of it -/

/-- The device with its superblock, when it has one. -/
def memberOf (device : R × Nat) : Option (R × MdSuperblock) :=
  match readSuperblockOf (view device.1) device.2 with
  | .ok (some sb) => some (device.1, sb)
  | _ => none

/-- The device, when it has no superblock. -/
def otherOf (device : R × Nat) : Option R :=
  match readSuperblockOf (view device.1) device.2 with
  | .ok none => some device.1
  | _ => none

/-- The device with the error its superblock gave. -/
def refusedOf (device : R × Nat) : Option (R × MdError) :=
  match readSuperblockOf (view device.1) device.2 with
  | .error error => some (device.1, error)
  | _ => none

theorem memberOf_eq_some {device : R × Nat} {member : R × MdSuperblock} :
    memberOf view device = some member ↔
      readSuperblockOf (view device.1) device.2 = .ok (some member.2) ∧ member.1 = device.1 := by
  unfold memberOf
  split
  next sb found =>
    rw [found]
    constructor
    · rintro ⟨⟩
      exact ⟨rfl, rfl⟩
    · rintro ⟨same, here⟩
      cases same
      rw [← here]
  next other =>
    constructor
    · rintro ⟨⟩
    · rintro ⟨found, _⟩
      exact absurd found (other member.2)

/-- The scan sorts each device by its own superblock alone. -/
theorem mdScan_eq (devices : List R) :
    mdScan view devices =
      { arrays := (mdGrouping R).gather (devices.zipIdx.filterMap (memberOf view))
        others := devices.zipIdx.filterMap (otherOf view)
        refused := devices.zipIdx.filterMap (refusedOf view) } := by
  unfold mdScan
  induction devices.zipIdx using List.reverseRecOn with
  | nil => rfl
  | append_singleton given device ih =>
      rw [List.foldl_append, ih, List.foldl_cons, List.foldl_nil]
      rcases found : readSuperblockOf (view device.1) device.2 with error | _ | sb
      · simp [scanMember, memberOf, otherOf, refusedOf, found]
      · simp [scanMember, memberOf, otherOf, refusedOf, found]
      · simp [scanMember, memberOf, otherOf, refusedOf, found, Grouping.gather]

/-- Every device is one of the three. -/
theorem perm_sorted (devices : List (R × Nat)) :
    ((devices.filterMap (memberOf view)).map Prod.fst ++ devices.filterMap (otherOf view) ++
      (devices.filterMap (refusedOf view)).map Prod.fst).Perm (devices.map Prod.fst) := by
  induction devices with
  | nil => rfl
  | cons device rest ih =>
      rcases found : readSuperblockOf (view device.1) device.2 with error | _ | sb
      · simp only [List.filterMap_cons, memberOf, otherOf, refusedOf, found, List.map_cons]
        exact List.perm_middle.trans (ih.cons _)
      · simp only [List.filterMap_cons, memberOf, otherOf, refusedOf, found, List.map_cons]
        rw [List.append_assoc, List.cons_append]
        refine List.perm_middle.trans (.cons _ ?_)
        rw [← List.append_assoc]
        exact ih
      · simp only [List.filterMap_cons, memberOf, otherOf, refusedOf, found, List.map_cons,
          List.cons_append]
        exact ih.cons _

/-! ## The groups -/

variable {view}

/-- What a group's members make of it. -/
theorem foldl_merge (rest : List (R × MdSuperblock)) (group : MdGroup R) :
    rest.foldl (mdGrouping R).merge group =
      { arrayUuid := group.arrayUuid
        superblock := (rest.map Prod.snd).foldl (newer MdSuperblock.events) group.superblock
        members := group.members ++ rest.map Prod.fst } := by
  induction rest generalizing group with
  | nil => simp
  | cons item rest ih =>
      rw [List.foldl_cons, ih]
      simp [mdGrouping, newer]

/-- A group made of its own items lists their devices and keeps the first of the newest
of their superblocks. -/
theorem own_of_madeOf {items : List (R × MdSuperblock)} {group : MdGroup R}
    (made : (mdGrouping R).MadeOf items group) :
    group.members = ((mdGrouping R).itemsOf items group).map Prod.fst ∧
      FirstHighest MdSuperblock.events
        (((mdGrouping R).itemsOf items group).map Prod.snd) group.superblock := by
  obtain ⟨first, rest, own, folded⟩ := made
  rw [own]
  rw [foldl_merge] at folded
  constructor
  · rw [folded]
    rfl
  · rw [folded]
    exact firstHighest_foldl first.2 (rest.map Prod.snd)

/-- The members of an array are devices that carry its superblocks. -/
theorem carriesEach_items {given : List (R × Nat)} {items : List (R × MdSuperblock)}
    (kept : items.Sublist (given.filterMap (memberOf view))) :
    CarriesEach (items.map fun item => view item.1) (items.map Prod.snd) := by
  unfold CarriesEach
  rw [List.forall₂_map_left_iff, List.forall₂_map_right_iff, List.forall₂_same]
  intro item member
  obtain ⟨device, _, found⟩ := List.mem_filterMap.mp (kept.subset member)
  obtain ⟨read, here⟩ := (memberOf_eq_some view).mp found
  exact ⟨device.2, here ▸ read⟩

theorem otherOf_eq_some {device : R × Nat} {other : R} (found : otherOf view device = some other) :
    other = device.1 := by
  unfold otherOf at found
  split at found
  next => exact (Option.some.inj found).symm
  next => cases found

theorem refusedOf_eq_some {device : R × Nat} {refused : R × MdError}
    (found : refusedOf view device = some refused) : refused.1 = device.1 := by
  unfold refusedOf at found
  split at found
  next =>
    cases found
    rfl
  next => cases found

/-- What sorting devices into arrays gives: every device in exactly one place, its order
kept there, one group for each array in the order the arrays are met, and in each the
superblock its assembly goes by. -/
structure SortsMembers (view : R → BlockRead) (devices : List R) (found : MdScan R) : Prop where
  places : (found.arrays.flatMap MdGroup.members ++ found.others ++
    found.refused.map Prod.fst).Perm devices
  members : ∀ group ∈ found.arrays, group.members.Sublist devices
  others : found.others.Sublist devices
  refused : (found.refused.map Prod.fst).Sublist devices
  distinct : (found.arrays.map MdGroup.arrayUuid).Nodup
  firstMet : found.arrays.map MdGroup.arrayUuid =
    (devices.zipIdx.filterMap fun device =>
      (memberOf view device).map fun item => item.2.arrayUuid).eraseDups
  carried : ∀ group ∈ found.arrays, ∀ dev ∈ group.members, ∃ member sb,
    readSuperblockOf (view dev) member = .ok (some sb) ∧ sb.arrayUuid = group.arrayUuid
  lead : ∀ group ∈ found.arrays, ∃ members,
    readMembers (group.members.map view) = .ok members ∧ leadOf members = .ok group.superblock
  assembled : ∀ group ∈ found.arrays, ∀ array,
    assemble (group.members.map view) = .ok array → array.superblock = group.superblock

theorem sortsMembers_mdScan (view : R → BlockRead) (devices : List R) :
    SortsMembers view devices (mdScan view devices) := by
  have gathered := (mdGrouping R).gathered_gather (devices.zipIdx.filterMap (memberOf view))
  generalize sorted : devices.zipIdx.filterMap (memberOf view) = items at gathered
  have given : devices.zipIdx.map Prod.fst = devices := List.zipIdx_map_fst 0 devices
  have ownMembers : ∀ group ∈ (mdGrouping R).gather items,
      group.members = ((mdGrouping R).itemsOf items group).map Prod.fst :=
    fun group member => (own_of_madeOf (gathered.made group member)).1
  have lead : ∀ group ∈ (mdGrouping R).gather items, ∃ members,
      readMembers (group.members.map view) = .ok members ∧
        leadOf members = .ok group.superblock := by
    intro group member
    obtain ⟨_, newest⟩ := own_of_madeOf (gathered.made group member)
    have kept : ((mdGrouping R).itemsOf items group).Sublist
        (devices.zipIdx.filterMap (memberOf view)) := by
      rw [sorted]
      exact List.filter_sublist
    have carried : CarriesEach (((mdGrouping R).itemsOf items group).map fun item => view item.1)
        (((mdGrouping R).itemsOf items group).map Prod.snd) := carriesEach_items kept
    have uuids : ∀ sb ∈ ((mdGrouping R).itemsOf items group).map Prod.snd,
        sb.arrayUuid = group.arrayUuid := by
      intro sb listed
      obtain ⟨item, own, rfl⟩ := List.mem_map.mp listed
      exact of_decide_eq_true (List.mem_filter.mp own).2
    rw [ownMembers group member, List.map_map]
    refine lead_of_carriesEach carried ?_ newest
    intro sb listed
    rw [uuids sb listed, uuids group.superblock newest.mem]
  rw [mdScan_eq, sorted]
  constructor
  case places =>
    have flat : ((mdGrouping R).gather items).flatMap MdGroup.members =
        (((mdGrouping R).gather items).flatMap ((mdGrouping R).itemsOf items)).map Prod.fst := by
      rw [List.map_flatMap]
      exact List.flatMap_congr ownMembers
    have all := perm_sorted view devices.zipIdx
    rw [sorted, given] at all
    refine List.Perm.trans ?_ all
    rw [flat]
    exact ((gathered.perm.map _).append_right _).append_right _
  case members =>
    intro group member
    rw [ownMembers group member]
    have kept : ((mdGrouping R).itemsOf items group).Sublist items := List.filter_sublist
    refine (kept.map Prod.fst).trans ?_
    have picked : ((devices.zipIdx.filterMap (memberOf view)).map Prod.fst).Sublist _ :=
      map_filterMap_sublist fun given item found => ((memberOf_eq_some view).mp found).2
    rwa [sorted, given] at picked
  case others =>
    have picked : ((devices.zipIdx.filterMap (otherOf view)).map id).Sublist _ :=
      map_filterMap_sublist fun given item found => otherOf_eq_some found
    rwa [given, List.map_id] at picked
  case refused =>
    have picked : ((devices.zipIdx.filterMap (refusedOf view)).map Prod.fst).Sublist _ :=
      map_filterMap_sublist fun given item found => refusedOf_eq_some found
    rwa [given] at picked
  case distinct => exact gathered.nodup
  case firstMet =>
    have keys := gathered.keys
    rw [← sorted, List.map_filterMap] at keys
    rw [← sorted, lawful_beq_subsingleton List.instBEq (instBEqOfDecidableEq)]
    exact keys
  case carried =>
    intro group member dev listed
    rw [ownMembers group member] at listed
    obtain ⟨item, own, rfl⟩ := List.mem_map.mp listed
    obtain ⟨known, key⟩ := List.mem_filter.mp own
    rw [← sorted] at known
    obtain ⟨device, _, found⟩ := List.mem_filterMap.mp known
    obtain ⟨read, here⟩ := (memberOf_eq_some view).mp found
    exact ⟨device.2, item.2, here ▸ read, of_decide_eq_true key⟩
  case lead => exact lead
  case assembled =>
    intro group member array assembled
    obtain ⟨members, read, led⟩ := lead group member
    exact superblock_of_assemble read led assembled

end DiskPartitions
