import DiskPartitions.ImageOffsets
import DiskPartitions.Raid10Reads
import DiskPartitions.ReorderedArrays

/-!
# RAID segments and arrays of their images

A RAID or mirror segment of a logical volume keeps its images as an `md` array keeps its
members: at the same level and layout, and each from the segment's data offset on.  An array
whose members are the images that are left is assembled exactly when the segment survives
without the others, and then both read the same.
-/

namespace DiskPartitions

open Refusals BufferedReads ClaimedSlots

/-! ## Segments -/

section Segments

variable {V : Type}

/-- A segment whose images on the `lost` slots are gone. -/
def RaidMap.without (raid : RaidMap V) (lost : Nat → Bool) : RaidMap V :=
  { raid with images := raid.images.mapIdx fun slot image => if lost slot then none else image }

@[simp]
theorem RaidMap.length_without (raid : RaidMap V) (lost : Nat → Bool) :
    (raid.without lost).images.length = raid.images.length :=
  List.length_mapIdx

theorem RaidMap.without_nothing (raid : RaidMap V) : raid.without (fun _ => false) = raid := by
  have same : raid.images.mapIdx (fun _ image => image) = raid.images := by
    refine List.ext_getElem List.length_mapIdx fun slot _ _ => ?_
    rw [List.getElem_mapIdx]
  exact congrArg (fun images => { raid with images }) same

/-- How much an array over images of `component` bytes each holds. -/
def RaidMap.capacity (raid : RaidMap V) (component : Nat) : Nat :=
  if raid.level = levelRaid1 then component
  else
    match raid.raid10 with
    | some geo => component / raid.chunk * raid.images.length / geo.near * raid.chunk
    | none =>
        component / raid.chunk * raid.chunk * (raid.images.length - parityCount raid.level)

/-- The levels of rows with parity are none of the others. -/
theorem ne_of_rows {level : Int} (rows : level = levelRaid5 ∨ level = levelRaid6) :
    level ≠ levelRaid1 ∧ level ≠ levelRaid10 ∧ level ≠ levelRaid0 ∧ level ≠ levelLinear := by
  rcases rows with rfl | rfl
  · decide
  · decide

/-- What the level makes of members that are images of `component` bytes each. -/
def RaidMap.geometry (raid : RaidMap V) (component : Nat) : Geometry where
  size := raid.capacity component
  zones := []
  raid10 := raid.raid10.map fun geo => { geo with stride := component / raid.chunk }

/-- The shape of a segment that is resolved, whichever of its images are present. -/
inductive RaidMap.Shaped (raid : RaidMap V) : Prop
  | mirrored (level : raid.level = levelRaid1) (legs : raid.raid10 = none)
  | rows (level : raid.level = levelRaid5 ∨ raid.level = levelRaid6) (rows : raid.raid10 = none)
      (several : parityCount raid.level < raid.images.length) (some_chunk : raid.chunk ≠ 0)
      (sectors : raid.chunk % mdSector = 0)
  | copied (near : Nat) (level : raid.level = levelRaid10)
      (copies : raid.raid10 = some (.ofNear near)) (layout : raid.layout = near + 256)
      (some_near : near ≠ 0) (small : near < 256) (enough : near ≤ raid.images.length)
      (some_chunk : raid.chunk ≠ 0) (sectors : raid.chunk % mdSector = 0)

theorem RaidMap.Shaped.without {raid : RaidMap V} (shaped : raid.Shaped) (lost : Nat → Bool) :
    (raid.without lost).Shaped := by
  cases shaped with
  | mirrored level legs => exact .mirrored level legs
  | rows level rows several some_chunk sectors =>
      refine .rows level rows ?_ some_chunk sectors
      rwa [length_without]
  | copied near level copies layout some_near small enough some_chunk sectors =>
      refine .copied near level copies layout some_near small ?_ some_chunk sectors
      rwa [length_without]

end Segments

namespace Mapper

variable {V : Type} {sub : String → Except LvmError (V × Nat)}
  {read : V → Nat → Nat → Except BlockError (List UInt8)} {mapper : Mapper} {name : String}
  {seg : Segment} {map : RaidMap V}

/-- A superblock's chunks are whole sectors. -/
theorem chunk_of_raidSuper {names : List String} {gone : Option LvmError} {sb : DmRaidSuper}
    (recorded : raidSuper sub read names gone = .ok sb) : sb.chunk % mdSector = 0 := by
  induction names generalizing gone with
  | nil => cases recorded
  | cons rmeta rest ih =>
      unfold raidSuper at recorded
      split at recorded
      next =>
        obtain ⟨_, _, recorded⟩ := bind_eq_ok.mp recorded
        unfold parseDmRaidSuper at recorded
        obtain ⟨_, recorded⟩ := refuseIf_bind_eq_ok.mp recorded
        obtain ⟨_, recorded⟩ := refuseIf_bind_eq_ok.mp recorded
        cases recorded
        exact Nat.mul_mod_left _ _
      next => exact ih recorded
      next => cases recorded

theorem shaped_of_raid (resolved : raid sub read name seg = .ok (.raid map)) : map.Shaped := by
  obtain ⟨images, sb, level, raid10, checks, same⟩ := raid_eq_ok.mp resolved
  cases same
  obtain ⟨parity, leveled, sized⟩ := checks.sized
  have copied := checks.copied
  have sectors := chunk_of_raidSuper checks.recorded
  unfold nearCopies at copied
  rcases mdLevel_eq_ok leveled with ⟨-, rfl, rfl⟩ | ⟨-, rfl, rfl⟩ | ⟨-, rfl, rfl⟩ | ⟨-, rfl, rfl⟩
  · rw [if_neg (by decide)] at copied
    cases copied
    exact .mirrored rfl rfl
  · rw [if_neg (by decide)] at copied
    cases copied
    obtain ⟨some_chunk, several⟩ := sized (by decide)
    exact .rows (.inl rfl) rfl several some_chunk sectors
  · rw [if_neg (by decide)] at copied
    cases copied
    obtain ⟨some_chunk, several⟩ := sized (by decide)
    exact .rows (.inr rfl) rfl several some_chunk sectors
  · obtain ⟨some_chunk, _⟩ := sized (by decide)
    rw [if_pos rfl] at copied
    obtain ⟨layout, copied⟩ := refuseIf_bind_eq_ok.mp copied
    obtain ⟨near, copied⟩ := refuseIf_bind_eq_ok.mp copied
    cases copied
    have small : sb.layout % 256 < 256 := Nat.mod_lt _ (by decide)
    refine .copied (sb.layout % 256) rfl rfl ?_ ?_ small ?_ some_chunk sectors
    · change sb.layout = _
      omega
    · omega
    · change _ ≤ images.length
      omega

theorem shaped_of_mirror (resolved : mirror sub seg = .ok (.raid map)) : map.Shaped := by
  unfold mirror at resolved
  obtain ⟨⟨images, gone⟩, imaged, resolved⟩ := bind_eq_ok.mp resolved
  obtain ⟨_, _, resolved⟩ := bind_eq_ok.mp resolved
  cases resolved
  exact .mirrored rfl rfl

theorem shaped_of_mapSegment (resolved : mapSegment sub read mapper name seg = .ok (.raid map)) :
    map.Shaped :=
  (raid_or_mirror resolved).elim shaped_of_raid shaped_of_mirror

end Mapper

/-! ## Members that hold the images -/

section Members

variable {V : Type} (raid : RaidMap V) (read : V → Nat → Nat → Except BlockError (List UInt8))
  (component : Nat)

/-- A member whose data area is an image from the segment's data offset on. -/
structure RaidMap.HoldsImage (image : V) (m : Member) : Prop where
  room : m.dataOffset + component ≤ m.dev.sizeBytes.toNat
  reads : ∀ off len, off + len ≤ component →
    m.dev.readAt (m.dataOffset + off) len = read image (raid.dataOffset + off) len

/-- Slots that hold the segment's images, and are empty where one is gone. -/
def RaidMap.Matches (slots : List (Option Member)) : Prop :=
  List.Forall₂ (Option.Rel (raid.HoldsImage read component)) raid.images slots

/-- The superblock of an array in the shape of the segment, on images of `component` bytes. -/
structure RaidMap.Describes (lead : MdSuperblock) : Prop where
  level : lead.level = raid.level
  layout : lead.layout = raid.layout
  chunk : lead.chunkBytes = raid.chunk
  disks : lead.raidDisks = raid.images.length
  size : lead.componentSize = component
  settled : lead.featureMap &&& featureReshapeActive = 0

variable {raid read component} {slots : List (Option Member)} {lead : MdSuperblock}

theorem RaidMap.Matches.getD (matched : raid.Matches read component slots) (slot : Nat) :
    Option.Rel (raid.HoldsImage read component) (raid.images.getD slot none)
      (slots.getD slot none) :=
  Slices.rel_getD matched slot

theorem RaidMap.Matches.isSome_getD (matched : raid.Matches read component slots) (slot : Nat) :
    (slots.getD slot none).isSome = (raid.images.getD slot none).isSome := by
  have related := matched.getD slot
  generalize raid.images.getD slot none = image at related ⊢
  generalize slots.getD slot none = held at related ⊢
  cases related with
  | none => rfl
  | some _ => rfl

theorem RaidMap.Matches.presentCount_eq (matched : raid.Matches read component slots) :
    presentCount slots + raid.images.countP Option.isNone = raid.images.length := by
  unfold Matches presentCount at *
  generalize raid.images = images at matched
  induction matched with
  | nil => rfl
  | cons first _ ih =>
      rw [List.countP_cons, List.countP_cons, List.length_cons]
      cases first <;> simp <;> omega

/-! ## Survival -/

/-- Where the rows of far copies begin matters to no near copy. -/
theorem Raid10.copies_near (near stride d c : Nat) :
    Raid10.copies ⟨near, 1, false, stride⟩ d c = (Raid10.ofNear near).copies d c := by
  rw [Raid10.copies_eq, Raid10.copies_eq]
  refine List.flatMap_congr fun i _ => List.map_congr_left fun k first => ?_
  obtain rfl := Nat.lt_one_iff.mp (List.mem_range.mp first)
  simp [Raid10.copySlot, Raid10.copyRow, Raid10.ofNear]

/-- A level 10 array needs a present copy of each of the chunks it looks at. -/
theorem requireCopies_eq_ok {geo : Raid10} {d : Nat} {chunks : List Nat} {passed : Unit} :
    requireCopies geo d slots chunks = .ok passed ↔
      ∀ c ∈ chunks, ∃ place ∈ geo.copies d c, (slots.getD place.1 none).isSome = true := by
  constructor
  · exact copy_of_requireCopies
  · intro kept
    induction chunks with
    | nil => rfl
    | cons c rest ih =>
        rw [requireCopies]
        refine refuseIf_bind_eq_ok.mpr ⟨?_, ih fun other later => kept other (by simp [later])⟩
        intro lost
        obtain ⟨place, inside, there⟩ := kept c List.mem_cons_self
        have gone := lost place inside
        rw [Option.isNone_iff_eq_none] at gone
        rw [gone] at there
        cases there

/-- A segment with parity survives as long as no more images are missing than it has syndromes. -/
theorem survives_rows {level : Int} (other : level ≠ levelRaid1) (images : List (Option V)) :
    survives level none images = true ↔ images.countP Option.isNone ≤ parityCount level := by
  unfold survives parityCount
  rw [if_neg other]
  split
  next copied => cases copied
  next =>
    split
    next => exact decide_eq_true_iff
    next => exact decide_eq_true_iff

/-- A segment of copies survives as long as a copy of every chunk is present. -/
theorem survives_copies (geo : Raid10) (images : List (Option V)) :
    survives levelRaid10 (some geo) images = true ↔
      ∀ c ∈ List.range images.length, ∃ place ∈ geo.copies images.length c,
        (images.getD place.1 none).isSome = true := by
  unfold survives
  rw [if_neg (by decide)]
  simp only [decide_true, List.all_eq_true, List.any_eq_true]

variable (matched : raid.Matches read component slots) (described : raid.Describes component lead)

include matched described

theorem RaidMap.raid1Geometry_eq_ok (level : raid.level = levelRaid1) (legs : raid.raid10 = none)
    {geometry : Geometry} :
    raid1Geometry lead slots = .ok geometry ↔
      survives raid.level raid.raid10 raid.images = true ∧ geometry = raid.geometry component := by
  have present := matched.presentCount_eq
  unfold raid1Geometry needMembers survives RaidMap.geometry RaidMap.capacity
  rw [refuseIf_bind_eq_ok, level, legs, if_pos rfl, if_pos rfl, decide_eq_true_eq, described.size,
    Except.ok.injEq]
  exact and_congr (by omega) eq_comm

theorem RaidMap.parityGeometry_eq_ok (level : raid.level = levelRaid5 ∨ raid.level = levelRaid6)
    (rows : raid.raid10 = none) (several : parityCount raid.level < raid.images.length)
    (some_chunk : raid.chunk ≠ 0) (sectors : raid.chunk % mdSector = 0)
    (placed : LayoutPlaced raid.level raid.layout) (fits : raid.capacity component < 2 ^ 64)
    {geometry : Geometry} :
    parityGeometry lead slots = .ok geometry ↔
      survives raid.level raid.raid10 raid.images = true ∧ geometry = raid.geometry component := by
  have present := matched.presentCount_eq
  have other := (ne_of_rows level).1
  have size : raid.capacity component =
      component / raid.chunk * raid.chunk * (raid.images.length - parityCount raid.level) := by
    unfold RaidMap.capacity
    rw [if_neg other, rows]
  have known : ¬ (raid.level = levelRaid6 ∧ ¬ raid6LayoutKnown raid.layout = true) := by
    rintro ⟨six, unknown⟩
    rw [LayoutPlaced, if_pos six] at placed
    exact unknown placed
  have within : ¬ (raid.level = levelRaid5 ∧ layoutParityLast < raid.layout) := by
    rintro ⟨five, past⟩
    rw [LayoutPlaced, five, if_neg (by decide)] at placed
    exact Nat.not_lt.mpr placed past
  rw [size] at fits
  rw [rows, survives_rows other, RaidMap.geometry, size, rows, Option.map_none]
  unfold parityGeometry needsChunk needMembers
  simp only [described.level, described.layout, described.chunk, described.disks, described.size,
    refuseIf_bind_eq_ok, Except.ok.injEq]
  change _ ∧ ¬ raid.images.length ≤ parityCount raid.level ∧ _ ∧ _ ∧
    ¬ presentCount slots < raid.images.length - parityCount raid.level ∧
    ¬ 2 ^ 64 ≤ component / raid.chunk * raid.chunk *
      (raid.images.length - parityCount raid.level) ∧ _ = geometry ↔ _
  rw [and_iff_right (by omega : ¬ (raid.chunk = 0 ∨ raid.chunk % mdSector ≠ 0)),
    and_iff_right (Nat.not_le.mpr several), and_iff_right known, and_iff_right within,
    and_iff_right (Nat.not_le.mpr fits)]
  exact and_congr (by omega) eq_comm

theorem RaidMap.raid10Geometry_eq_ok {near : Nat} (level : raid.level = levelRaid10)
    (copies : raid.raid10 = some (.ofNear near)) (layout : raid.layout = near + 256)
    (some_near : near ≠ 0) (small : near < 256) (enough : near ≤ raid.images.length)
    (some_chunk : raid.chunk ≠ 0) (sectors : raid.chunk % mdSector = 0)
    (fits : raid.capacity component < 2 ^ 64) {geometry : Geometry} :
    raid10Geometry lead slots = .ok geometry ↔
      survives raid.level raid.raid10 raid.images = true ∧ geometry = raid.geometry component := by
  have present := matched.isSome_getD
  have size : raid.capacity component =
      component / raid.chunk * raid.images.length / near * raid.chunk := by
    unfold RaidMap.capacity
    rw [level, if_neg (by decide), copies]
    rfl
  have own : (near + 256) % 256 = near := by omega
  have one : (near + 256) / 256 % 256 = 1 := by omega
  have apart : (near + 256 &&& raid10Offset != 0) = false := by
    rw [raid10Offset, Nat.shiftLeft_eq, Nat.one_mul, Nat.and_two_pow,
      Nat.testBit_lt_two_pow (by omega)]
    rfl
  rw [size] at fits
  -- a copy of every chunk takes at most 255 members, and a chunk at least 512 bytes
  have whole : component / raid.chunk * raid.images.length < 2 ^ 64 := by
    generalize component / raid.chunk * raid.images.length = chunks at fits ⊢
    have sector : 512 ≤ raid.chunk := by
      unfold mdSector at sectors
      omega
    have bytes : chunks / near * 512 < 2 ^ 64 :=
      Nat.lt_of_le_of_lt (Nat.mul_le_mul_left _ sector) fits
    have rounded : chunks < (chunks / near + 1) * near :=
      Nat.lt_mul_of_div_lt (Nat.lt_succ_self _) (Nat.pos_of_ne_zero some_near)
    calc chunks < (chunks / near + 1) * near := rounded
      _ ≤ 2 ^ 55 * 256 := Nat.mul_le_mul (by omega) (Nat.le_of_lt small)
      _ ≤ 2 ^ 64 := by decide
  rw [RaidMap.geometry, size, level, copies, survives_copies, Option.map_some]
  unfold raid10Geometry needsChunk
  simp only [described.layout, described.chunk, described.disks, described.size, layout, own,
    one, apart, Nat.div_one, Nat.mul_one, Nat.mod_eq_of_lt whole]
  rw [refuseIf_bind_eq_ok, refuseIf_bind_eq_ok, refuseIf_bind_eq_ok,
    and_iff_right (by omega : ¬ (raid.chunk = 0 ∨ raid.chunk % mdSector ≠ 0)),
    and_iff_right (by omega : ¬ 2 ^ 17 ≤ near + 256),
    and_iff_right (by omega : ¬ (near = 0 ∨ 1 = 0 ∨ raid.images.length < near)),
    bind_eq_ok]
  simp only [requireCopies_eq_ok, refuseIf_bind_eq_ok, present, Raid10.copies_near]
  rw [exists_const, and_iff_right (Nat.not_le.mpr fits), Except.ok.injEq]
  exact and_congr_right fun _ => eq_comm

/-- A level can do with the images there are exactly when the segment survives. -/
theorem RaidMap.levelGeometry_eq_ok (shaped : raid.Shaped)
    (placed : raid.level = levelRaid5 ∨ raid.level = levelRaid6 →
      LayoutPlaced raid.level raid.layout)
    (fits : raid.capacity component < 2 ^ 64) {geometry : Geometry} :
    levelGeometry lead slots = .ok geometry ↔
      survives raid.level raid.raid10 raid.images = true ∧ geometry = raid.geometry component := by
  unfold levelGeometry
  rw [described.level]
  cases shaped with
  | mirrored level legs =>
      rw [if_neg (by rw [level]; decide), if_pos level]
      exact raid1Geometry_eq_ok matched described level legs
  | rows level rows several some_chunk sectors =>
      obtain ⟨one, ten, zero, linear⟩ := ne_of_rows level
      rw [if_neg linear, if_neg one, if_neg zero, if_neg ten, if_pos (.inr level)]
      exact parityGeometry_eq_ok matched described level rows several some_chunk sectors
        (placed level) fits
  | copied near level copies layout some_near small enough some_chunk sectors =>
      rw [if_neg (by rw [level]; decide), if_neg (by rw [level]; decide),
        if_neg (by rw [level]; decide), if_pos level]
      exact raid10Geometry_eq_ok matched described level copies layout some_near small enough
        some_chunk sectors fits

omit matched in
/-- No more of a member is read than its image holds. -/
theorem RaidMap.memberSpan_le :
    memberSpan lead (raid.geometry component).size ≤ component := by
  unfold memberSpan
  rw [described.level]
  split
  next one =>
    change raid.capacity component ≤ component
    unfold RaidMap.capacity
    rw [if_pos one]
  next =>
    split
    next => exact Nat.zero_le _
    next => exact Nat.le_of_eq described.size

end Members

/-- The array whose members in their slots are the segment's images. -/
def RaidMap.arrayOf {V : Type} (raid : RaidMap V) (component : Nat) (slots : List (Option Member))
    (lead : MdSuperblock) : MdArray where
  slots := slots
  level := raid.level
  layout := raid.layout
  chunk := raid.chunk
  size := raid.capacity component
  zones := []
  raid10 := (raid.geometry component).raid10
  superblock := lead

section Arrays

variable {V : Type} {raid : RaidMap V} {read : V → Nat → Nat → Except BlockError (List UInt8)}
  {component : Nat} {slots : List (Option Member)} {lead : MdSuperblock}

/-- A member in a slot holds the image that belongs there. -/
theorem RaidMap.Matches.holds (matched : raid.Matches read component slots) {m : Member}
    (listed : m ∈ slots.filterMap id) :
    ∃ image, some image ∈ raid.images ∧ raid.HoldsImage read component image m := by
  obtain ⟨held, inside, rfl⟩ := List.mem_filterMap.mp listed
  obtain ⟨image, own, related⟩ := Slices.exists_of_mem_right matched inside
  cases related with
  | @some image _ holds => exact ⟨image, own, holds⟩

/-- The array is assembled of its members exactly when the segment survives. -/
theorem RaidMap.finishArray_eq_ok (matched : raid.Matches read component slots)
    (described : raid.Describes component lead) (shaped : raid.Shaped)
    (placed : raid.level = levelRaid5 ∨ raid.level = levelRaid6 →
      LayoutPlaced raid.level raid.layout)
    (fits : raid.capacity component < 2 ^ 64) {array : MdArray} :
    finishArray lead slots = .ok array ↔
      survives raid.level raid.raid10 raid.images = true ∧
        array = raid.arrayOf component slots lead := by
  have room : ¬ ∃ m ∈ slots.filterMap id, m.dev.sizeBytes.toNat <
      m.dataOffset + memberSpan lead (raid.geometry component).size := by
    rintro ⟨m, listed, short⟩
    obtain ⟨image, _, holds⟩ := matched.holds listed
    have room := holds.room
    have span := memberSpan_le described
    omega
  have same : ∀ geometry, levelGeometry lead slots = .ok geometry ↔ _ :=
    fun _ => levelGeometry_eq_ok matched described shaped placed fits
  unfold finishArray
  rw [bind_eq_ok]
  constructor
  · rintro ⟨geometry, shaped, finished⟩
    obtain ⟨enough, rfl⟩ := (same geometry).mp shaped
    obtain ⟨_, finished⟩ := refuseIf_bind_eq_ok.mp finished
    cases finished
    refine ⟨enough, ?_⟩
    rw [described.level, described.layout, described.chunk]
    rfl
  · rintro ⟨enough, rfl⟩
    refine ⟨_, (same _).mpr ⟨enough, rfl⟩, refuseIf_bind_eq_ok.mpr ⟨room, ?_⟩⟩
    rw [described.level, described.layout, described.chunk]
    rfl

end Arrays

end DiskPartitions
