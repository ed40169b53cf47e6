import DiskPartitions.MatchedImages

/-!
# Assembling the images of a segment

Devices that carry the images of a segment as the members of an array, one for each image that
is present and in any order, put them back in their slots.
-/

namespace DiskPartitions

open Refusals BufferedReads ClaimedSlots KeyedGroups

variable {V : Type}

/-- The slots whose images are present. -/
def presentSlots (images : List (Option V)) : List Nat :=
  (List.range images.length).filter fun slot => (images.getD slot none).isSome

theorem mem_presentSlots {images : List (Option V)} {slot : Nat} :
    slot ∈ presentSlots images ↔ ∃ image, images[slot]? = some (some image) := by
  rw [presentSlots, List.mem_filter, List.mem_range, List.getD_eq_getElem?_getD]
  constructor
  · rintro ⟨inside, there⟩
    rw [List.getElem?_eq_getElem inside, Option.getD_some] at there
    obtain ⟨image, own⟩ := Option.isSome_iff_exists.mp there
    exact ⟨image, by rw [List.getElem?_eq_getElem inside, own]⟩
  · rintro ⟨image, own⟩
    refine ⟨(List.getElem?_eq_some_iff.mp own).1, ?_⟩
    rw [own]
    rfl

theorem nodup_presentSlots (images : List (Option V)) : (presentSlots images).Nodup :=
  List.nodup_range.filter _

/-- The member a device is, by the superblock that it carries. -/
def heldBy (carrier : BlockRead × MdSuperblock) : Member where
  dev := carrier.1
  dataOffset := carrier.2.dataOffset
  dataSize := carrier.2.dataSize

/-- Devices, in any order, that carry an array on the images that are present: `carrier slot` is
the one with the image of `slot`, and the superblock it carries. -/
structure RaidMap.CarriedBy (raid : RaidMap V)
    (read : V → Nat → Nat → Except BlockError (List UInt8)) (component : Nat)
    (carrier : Nat → BlockRead × MdSuperblock) (devices : List BlockRead) : Prop where
  perm : devices.Perm ((presentSlots raid.images).map fun slot => (carrier slot).1)
  carried : ∀ slot ∈ presentSlots raid.images,
    superblockOf (carrier slot).1 = some (carrier slot).2
  describes : ∀ slot ∈ presentSlots raid.images, raid.Describes component (carrier slot).2
  role : ∀ slot ∈ presentSlots raid.images, (carrier slot).2.role = .active slot
  recovered : ∀ slot ∈ presentSlots raid.images,
    (carrier slot).2.featureMap &&& featureRecoveryOffset = 0
  uniform : ∀ first ∈ presentSlots raid.images, ∀ second ∈ presentSlots raid.images,
    (carrier first).2.arrayUuid = (carrier second).2.arrayUuid ∧
      (carrier first).2.events = (carrier second).2.events
  holds : ∀ slot image, raid.images[slot]? = some (some image) →
    raid.HoldsImage read component image (heldBy (carrier slot))

/-- The images in the slots of the array. -/
def RaidMap.slotsOf (raid : RaidMap V) (carrier : Nat → BlockRead × MdSuperblock) :
    List (Option Member) :=
  raid.images.mapIdx fun slot image => image.map fun _ => heldBy (carrier slot)

section Carried

variable {raid : RaidMap V} {read : V → Nat → Nat → Except BlockError (List UInt8)}
  {component : Nat} {carrier : Nat → BlockRead × MdSuperblock} {devices : List BlockRead}
  (carriers : raid.CarriedBy read component carrier devices)

include carriers

theorem RaidMap.CarriedBy.matches : raid.Matches read component (raid.slotsOf carrier) := by
  have holds := carriers.holds
  unfold Matches slotsOf
  rw [List.forall₂_iff_get]
  refine ⟨by rw [List.length_mapIdx], fun slot inside _ => ?_⟩
  rw [List.get_eq_getElem, List.get_eq_getElem, List.getElem_mapIdx]
  cases own : raid.images[slot] with
  | none => exact .none
  | some image =>
      refine .some (holds slot image ?_)
      rw [List.getElem?_eq_getElem inside, own]

theorem RaidMap.CarriedBy.mem_devices {dev : BlockRead} :
    dev ∈ devices ↔ ∃ slot ∈ presentSlots raid.images, dev = (carrier slot).1 := by
  rw [carriers.perm.mem_iff, List.mem_map]
  simp only [eq_comm]

/-- The members that are read are those that carry the images. -/
theorem RaidMap.CarriedBy.perm_found {found : List (Nat × BlockRead × MdSuperblock)}
    (readThem : readMembers devices = .ok found) :
    (found.map Prod.snd).Perm ((presentSlots raid.images).map carrier) := by
  have own : ((presentSlots raid.images).map fun slot => (carrier slot).1).filterMap carrierOf =
      (presentSlots raid.images).map carrier := by
    rw [List.filterMap_map, ← List.filterMap_eq_map]
    refine List.filterMap_congr fun slot listed => ?_
    rw [Function.comp_apply, carrierOf, carriers.carried slot listed]
    rfl
  rw [(carriers_of_readMembers readThem).2, ← own]
  exact carriers.perm.filterMap _

/-- What the members claim under the superblock of any of them. -/
theorem RaidMap.CarriedBy.perm_claims {found : List (Nat × BlockRead × MdSuperblock)}
    (readThem : readMembers devices = .ok found) {leading : Nat}
    (listed : leading ∈ presentSlots raid.images) :
    (claimsUnder (carrier leading).2 found).Perm
      ((presentSlots raid.images).map fun slot => (slot, heldBy (carrier slot))) := by
  have own : ((presentSlots raid.images).map carrier).filterMap
      (claimOf (carrier leading).2.raidDisks (carrier leading).2.events) =
        (presentSlots raid.images).map fun slot => (slot, heldBy (carrier slot)) := by
    rw [List.filterMap_map, ← List.filterMap_eq_map]
    refine List.filterMap_congr fun slot present => ?_
    have current : ¬ ((carrier slot).2.events < (carrier leading).2.events ∨
        (carrier slot).2.featureMap &&& featureRecoveryOffset ≠ 0) := by
      rw [(carriers.uniform slot present leading listed).2, carriers.recovered slot present]
      omega
    have inside : ¬ (carrier leading).2.raidDisks ≤ slot := by
      obtain ⟨image, own⟩ := mem_presentSlots.mp present
      rw [(carriers.describes leading listed).disks, Nat.not_le]
      exact (List.getElem?_eq_some_iff.mp own).1
    rw [Function.comp_apply, claimOf, slotOf, carriers.role slot present]
    dsimp only
    rw [if_neg current, if_neg inside]
    rfl
  unfold claimsUnder
  rw [← own]
  exact (carriers.perm_found readThem).filterMap _

/-- The images come to their slots. -/
theorem RaidMap.CarriedBy.filled_claims {found : List (Nat × BlockRead × MdSuperblock)}
    (readThem : readMembers devices = .ok found) {leading : Nat}
    (listed : leading ∈ presentSlots raid.images) :
    ((claimsUnder (carrier leading).2 found).map Prod.fst).Nodup ∧
      filled raid.images.length (claimsUnder (carrier leading).2 found) = raid.slotsOf carrier := by
  have perm := carriers.perm_claims readThem listed
  have slots : ((presentSlots raid.images).map fun slot =>
      (slot, heldBy (carrier slot))).map Prod.fst = presentSlots raid.images := by
    rw [List.map_map]
    exact List.map_id _
  have nodup := nodup_presentSlots raid.images
  rw [← slots] at nodup
  refine ⟨(perm.map Prod.fst).nodup_iff.mpr nodup, ?_⟩
  rw [← filled_perm nodup perm.symm]
  refine List.ext_getElem (by simp [filled, slotsOf]) fun slot inside _ => ?_
  have within : slot < raid.images.length := by simpa [filled] using inside
  simp only [filled, slotsOf, List.getElem_map, List.getElem_range, List.getElem_mapIdx]
  cases own : raid.images[slot] with
  | none =>
      rw [Option.map_none, claimed_eq_none_iff, slots]
      intro present
      obtain ⟨image, held⟩ := mem_presentSlots.mp present
      rw [List.getElem?_eq_getElem within, own] at held
      cases held
  | some image =>
      rw [Option.map_some, claimed_eq_some_iff nodup]
      have present : slot ∈ presentSlots raid.images := by
        refine mem_presentSlots.mpr ⟨image, ?_⟩
        rw [List.getElem?_eq_getElem within, own]
      exact List.mem_map_of_mem present

/-- Reading the devices leads to the superblock of one that carries an image. -/
theorem RaidMap.CarriedBy.exists_lead {leading : Nat}
    (listed : leading ∈ presentSlots raid.images) :
    ∃ found, readMembers devices = .ok found ∧
      ∃ slot ∈ presentSlots raid.images, leadOf found = .ok (carrier slot).2 := by
  obtain ⟨found, readThem⟩ : ∃ found, readMembers devices = .ok found := by
    refine exists_readMembers fun dev given => ?_
    obtain ⟨slot, present, rfl⟩ := carriers.mem_devices.mp given
    exact ⟨_, carriers.carried slot present⟩
  have perm := carriers.perm_found readThem
  have own : ∀ member ∈ found, ∃ slot ∈ presentSlots raid.images, carrier slot = member.2 := by
    intro member there
    exact List.mem_map.mp (perm.mem_iff.mp (List.mem_map_of_mem there))
  have some_found : found ≠ [] := by
    rintro rfl
    have none := List.map_eq_nil_iff.mp perm.nil_eq.symm
    rw [none] at listed
    cases listed
  have uuid : ∀ member ∈ found, member.2.2.arrayUuid = (carrier leading).2.arrayUuid := by
    intro member there
    obtain ⟨slot, present, same⟩ := own member there
    rw [← same]
    exact (carriers.uniform slot present leading listed).1
  obtain ⟨lead, led⟩ := exists_leadOf some_found uuid
  obtain ⟨member, there, same⟩ := List.mem_map.mp (firstHighest_of_leadOf led).2.mem
  obtain ⟨slot, present, held⟩ := own member there
  refine ⟨found, readThem, slot, present, ?_⟩
  rw [held, same]
  exact led

omit carriers in
/-- A segment without any image does not survive. -/
theorem RaidMap.Shaped.not_survives (shaped : raid.Shaped) (gone : presentSlots raid.images = []) :
    ¬ survives raid.level raid.raid10 raid.images = true := by
  have none : ∀ image ∈ raid.images, image.isNone = true := by
    intro image listed
    rw [Option.isNone_iff_eq_none]
    cases image with
    | none => rfl
    | some image =>
        obtain ⟨slot, inside, own⟩ := List.getElem_of_mem listed
        have present : slot ∈ presentSlots raid.images := by
          refine mem_presentSlots.mpr ⟨image, ?_⟩
          rw [List.getElem?_eq_getElem inside, own]
        rw [gone] at present
        cases present
  have missing : raid.images.countP Option.isNone = raid.images.length :=
    List.countP_eq_length.mpr none
  cases shaped with
  | mirrored level legs =>
      unfold survives
      rw [if_pos level, missing, decide_eq_true_eq]
      exact Nat.lt_irrefl _
  | rows level rows several some_chunk sectors =>
      rw [rows, survives_rows (ne_of_rows level).1, missing]
      exact Nat.not_le.mpr several
  | copied near level copies layout some_near small enough some_chunk sectors =>
      rw [level, copies, survives_copies]
      intro kept
      obtain ⟨place, _, there⟩ := kept 0 (List.mem_range.mpr (by omega))
      have absent : raid.images.getD place.1 Option.none = Option.none := by
        rw [List.getD_eq_getElem?_getD]
        cases found : raid.images[place.1]? with
        | none => rfl
        | some image => exact Option.isNone_iff_eq_none.mp (none image (List.mem_of_getElem? found))
      rw [absent] at there
      cases there

/-- An array is assembled of the devices exactly when the segment survives, and then it is the
one of its images. -/
theorem RaidMap.CarriedBy.assemble_iff (shaped : raid.Shaped)
    (placed : raid.level = levelRaid5 ∨ raid.level = levelRaid6 →
      LayoutPlaced raid.level raid.layout)
    (few : raid.images.length ≤ v1MaxDev) (fits : raid.capacity component < 2 ^ 64) :
    ((∃ array, assemble devices = .ok array) ↔
        survives raid.level raid.raid10 raid.images = true) ∧
      ∀ array, assemble devices = .ok array →
        survives raid.level raid.raid10 raid.images = true ∧
          ∃ lead, array = raid.arrayOf component (raid.slotsOf carrier) lead := by
  rcases List.eq_nil_or_concat' (presentSlots raid.images) with gone | ⟨_, leading, some_present⟩
  · have empty : devices = [] := by
      have perm := carriers.perm
      rw [gone] at perm
      exact perm.eq_nil
    have fails : ∀ array, assemble devices ≠ .ok array := by
      rw [empty]
      intro array assembled
      cases assembled
    refine ⟨iff_of_false ?_ (shaped.not_survives gone), ?_⟩
    · rintro ⟨array, assembled⟩
      exact fails array assembled
    · intro array assembled
      exact absurd assembled (fails array)
  · have listed : leading ∈ presentSlots raid.images := by simp [some_present]
    obtain ⟨found, readThem, slot, present, led⟩ := carriers.exists_lead listed
    have described := carriers.describes slot present
    obtain ⟨nodup, slots⟩ := carriers.filled_claims readThem present
    have counted : ¬ ((carrier slot).2.raidDisks = 0 ∨ v1MaxDev < (carrier slot).2.raidDisks) := by
      obtain ⟨image, own⟩ := mem_presentSlots.mp present
      have inside := (List.getElem?_eq_some_iff.mp own).1
      rw [described.disks]
      omega
    have same : ∀ array, assemble devices = .ok array ↔
        survives raid.level raid.raid10 raid.images = true ∧
          array = raid.arrayOf component (raid.slotsOf carrier) (carrier slot).2 := by
      intro array
      rw [← finishArray_eq_ok carriers.matches described shaped placed fits, ← slots,
        ← described.disks]
      constructor
      · intro assembled
        obtain ⟨other, lead, readAgain, ledAgain, assembled⟩ := assemble_eq_ok.mp assembled
        obtain rfl := Except.ok.inj (readThem.symm.trans readAgain)
        obtain rfl := Except.ok.inj (led.symm.trans ledAgain)
        exact (assembleLed_eq_ok.mp assembled).2.2.2
      · intro finished
        exact assemble_eq_ok.mpr ⟨found, _, readThem, led,
          assembleLed_eq_ok.mpr ⟨described.settled, counted, nodup, finished⟩⟩
    constructor
    · constructor
      · rintro ⟨array, assembled⟩
        exact ((same array).mp assembled).1
      · intro enough
        exact ⟨_, (same _).mpr ⟨enough, rfl⟩⟩
    · intro array assembled
      obtain ⟨enough, own⟩ := (same array).mp assembled
      exact ⟨enough, _, own⟩

end Carried

end DiskPartitions
