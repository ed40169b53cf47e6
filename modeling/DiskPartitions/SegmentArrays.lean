import DiskPartitions.ImageReads

/-!
# Segments read as arrays

A RAID or mirror segment of a logical volume and the `md` array of its images do without the
same images, and read the same bytes.  The one difference is that `md` counts its members: an
array has at most 1920, and a segment as many images as its metadata lists.
-/

namespace DiskPartitions

open Refusals BufferedReads ClaimedSlots Tilings

theorem readVolume_empty (devices : List BlockRead) {levels : Nat} (volume : Volume levels)
    (place : Nat) : readVolume devices levels volume place 0 = .ok [] := by
  cases levels with
  | zero => exact nomatch volume
  | succ levels => rfl

/-- The runs of a volume serve the reads that lie in them. -/
theorem serves_of_tiles {V : Type} {runs : List (Run V)} {size : Nat}
    (tiled : Tiles (runs.map Run.tile) 0 size) (small : size < 2 ^ 64) {run : Run V}
    (member : run ∈ runs) {within len : Nat} (inside : within + len ≤ run.len) :
    Serves runs run (run.start + within) len := by
  intro position first last
  obtain ⟨further, rfl⟩ := Nat.exists_eq_add_of_le first
  have found := @find_run_of_mem _ _ _ tiled small _ member (within + further) (by omega)
  rw [Nat.add_assoc]
  exact found

/-- Whichever images are lost, the segment survives exactly when an array is assembled of the
others, and then reading the segment is reading the array. -/
def RaidMap.AgreesWithArrays {levels : Nat} (raid : RaidMap (Volume levels))
    (devices : List BlockRead) : Prop :=
  ∀ (lost : Nat → Bool) (component : Nat) (carrier : Nat → BlockRead × MdSuperblock)
    (members : List BlockRead),
    raid.dataOffset + component < 2 ^ 64 → raid.capacity component < 2 ^ 64 →
    (raid.without lost).CarriedBy (readVolume devices levels) component carrier members →
    (survives raid.level raid.raid10 (raid.without lost).images = true ↔
        ∃ array, assemble members = .ok array) ∧
      ∀ array, assemble members = .ok array →
        ∀ runs run, run.map = .raid (raid.without lost) → run.len ≤ raid.capacity component →
          ∀ within len, within + len ≤ run.len → Serves runs run (run.start + within) len →
            readRuns (readVolume devices levels) devices runs (run.start + within) len =
              array.readAt within len

/-- The superblock of one of the legs of a mirror. -/
def legWords (legs slot : Nat) : LegacyWords where
  level := 1
  sizeKib := 1
  raidDisks := legs
  events := 7
  layout := 0
  chunkBytes := 0
  raidDisk := slot
  state := 6

/-- A leg of a mirror that holds 5 throughout. -/
def mirrorLeg (legs slot : Nat) : BlockRead := legacyMember (legWords legs slot) fun _ => 5

/-- A group with one volume, of one extent. -/
def legMapper : Mapper where
  vg := ⟨"vg", "vg", 1, 1024, [⟨"pv", "uuid", 0, 1⟩],
    [⟨"a", "a", [⟨0, 1, "striped", 0, [⟨"pv", 0⟩], [], [], none, none, none, by simp⟩]⟩],
    by decide⟩
  uuidToDev := [("uuid", 0)]
  devices := [mirrorLeg 1 0]

/-- The volume that every image of the mirror is. -/
def legVolume : Volume 1 := [{ start := 0, len := 1024, map := .striped 0 [(0, 0)] }]

theorem map_legVolume : legMapper.map 1 "a" = .ok (legVolume, 1024) := rfl

/-- A mirror segment of as many images. -/
def mirrorSegment (legs : Nat) : Segment :=
  ⟨0, 1, "mirror", 0, [], List.replicate legs "a", [], none, none, none, unstriped_sized⟩

def mirrorMap (legs : Nat) : RaidMap (Volume 1) where
  level := levelRaid1
  raid10 := none
  layout := 0
  chunk := 0
  dataOffset := 0
  images := List.replicate legs (some legVolume)

theorem survives_mirrorMap {legs : Nat} (some_legs : legs ≠ 0) :
    survives levelRaid1 none (mirrorMap legs).images = true := by
  unfold survives mirrorMap
  rw [if_pos rfl, decide_eq_true_eq, List.countP_eq_zero.mpr, List.length_replicate]
  · exact Nat.pos_of_ne_zero some_legs
  · intro image there
    rw [List.eq_of_mem_replicate there]
    exact Bool.false_ne_true

theorem mapSegment_mirror {legs : Nat} (some_legs : legs ≠ 0) :
    Mapper.mapSegment (legMapper.map 1) (readVolume legMapper.devices 1) legMapper "m"
      (mirrorSegment legs) = .ok (.raid (mirrorMap legs)) := by
  have imaged : ∀ legs, Mapper.imageRuns (legMapper.map 1) (List.replicate legs "a") none =
      .ok (List.replicate legs (some legVolume), none) := by
    intro legs
    induction legs with
    | zero => rfl
    | succ legs ih =>
        rw [List.replicate_succ, Mapper.imageRuns, map_legVolume]
        dsimp only
        rw [ih]
        rfl
  have listed : (mirrorSegment legs).images ≠ [] := by
    rw [← List.length_pos_iff]
    change 0 < (List.replicate legs "a").length
    rw [List.length_replicate]
    exact Nat.pos_of_ne_zero some_legs
  have enough := survives_mirrorMap some_legs
  unfold mirrorMap at enough
  change Mapper.mirror (legMapper.map 1) (mirrorSegment legs) = _
  unfold Mapper.mirror Mapper.images Mapper.requireSurvives
  rw [refuseIf_of_not listed, ok_bind]
  change (Mapper.imageRuns (legMapper.map 1) (List.replicate legs "a") none >>= _) = _
  rw [imaged, ok_bind]
  dsimp only
  rw [refuseIf_of_not (not_not.mpr enough), ok_bind]
  rfl

/-- The image holds 5 throughout. -/
theorem readVolume_legVolume {offset len : Nat} (inside : offset + len ≤ 1024) :
    readVolume legMapper.devices 1 legVolume offset len = .ok (List.replicate len 5) := by
  have tiled : Tiles (legVolume.map Run.tile) 0 1024 := ⟨rfl, rfl⟩
  have read := @readRuns_content (Volume 0) (readVolume legMapper.devices 0) legMapper.devices
    legVolume 1024 tiled (by decide) (fun _ => 5)
  rw [replicate_eq_buffer]
  refine read ?_ inside
  intro run listed within want some_want fits
  rw [List.mem_singleton.mp listed] at fits ⊢
  refine ⟨want, some_want, Nat.le_refl want, ?_⟩
  rw [← replicate_eq_buffer]
  have held := @readAt_legacyConstant (legWords 1 0) 5 (0 + within) want (by
    change within + want ≤ 1024 at fits
    omega)
  rw [Nat.zero_add] at held
  exact held

theorem superblockOf_mirrorLeg {legs slot : Nat} (few : legs < 2 ^ 32) (small : slot < 2 ^ 32) :
    superblockOf (mirrorLeg legs slot) = some (legWords legs slot).superblock := by
  refine (superblockOf_eq_some 0).mpr (readSuperblockOf_legacyMember ?_ ?_ 0)
  · exact ⟨show 1 < 2 ^ 32 by decide, show 1 ≤ 64 by decide, few, show 7 < 2 ^ 32 by decide,
      show 0 < 2 ^ 32 by decide, show 0 < 2 ^ 32 by decide, small, show 6 < 2 ^ 32 by decide⟩
  · exact plainArea_const (by decide)

/-- The legs carry the images, whichever are lost. -/
theorem carriedBy_mirrorLegs {legs : Nat} (few : legs < 2 ^ 32) (lost : Nat → Bool) :
    ((mirrorMap legs).without lost).CarriedBy (readVolume legMapper.devices 1) 1024
      (fun slot => (mirrorLeg legs slot, (legWords legs slot).superblock))
      ((presentSlots ((mirrorMap legs).without lost).images).map (mirrorLeg legs)) := by
  have listed : ∀ slot image, ((mirrorMap legs).without lost).images[slot]? = some (some image) →
      slot < legs ∧ image = legVolume := by
    intro slot image own
    unfold RaidMap.without mirrorMap at own
    rw [List.getElem?_mapIdx, Option.map_eq_some_iff] at own
    obtain ⟨held, there, own⟩ := own
    have inside := (List.getElem?_eq_some_iff.mp there).1
    rw [List.length_replicate] at inside
    rw [List.getElem?_replicate, if_pos inside] at there
    cases there
    split at own
    next => cases own
    next => exact ⟨inside, (Option.some.inj own).symm⟩
  have small : ∀ slot ∈ presentSlots ((mirrorMap legs).without lost).images, slot < 2 ^ 32 := by
    intro slot present
    obtain ⟨image, own⟩ := mem_presentSlots.mp present
    exact Nat.lt_trans (listed slot image own).1 few
  constructor
  · exact List.Perm.refl _
  · intro slot present
    exact superblockOf_mirrorLeg few (small slot present)
  · intro slot _
    exact ⟨rfl, rfl, rfl, (List.length_mapIdx.trans List.length_replicate).symm,
      Nat.one_mul 1024, Nat.zero_and _⟩
  · intro slot _
    dsimp only [LegacyWords.superblock, legWords]
    rw [v0Role, if_neg (by decide), if_pos (by decide)]
  · intro slot _
    exact Nat.zero_and _
  · intro first _ second _
    exact ⟨rfl, rfl⟩
  · intro slot image own
    rw [(listed slot image own).2]
    refine ⟨show 0 + 1024 ≤ (131072 : UInt64).toNat by decide, ?_⟩
    intro off len inside
    change (mirrorLeg legs slot).readAt (0 + off) len = readVolume legMapper.devices 1 legVolume
      (0 + off) len
    rw [readVolume_legVolume (by rw [Nat.zero_add]; exact inside)]
    exact readAt_legacyConstant _ 5 (by omega)

end DiskPartitions
