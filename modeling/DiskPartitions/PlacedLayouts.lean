import DiskPartitions.DeeperVolumes
import DiskPartitions.StripedVolumes
import DiskPartitions.TrappingReads

/-!
# RAID layouts a volume is opened with

The layout of a RAID segment is a word of its dm-raid superblock.  Assembling an `md` array
refuses the words its levels have no place for; opening a logical volume does not.  A group
reads without a stop when every RAID segment of a volume that opens records a layout that has
a place, and some volume of the group stops otherwise.
-/

namespace DiskPartitions

open Refusals Slices LittleEndian BufferedReads Tilings TrappingWords

/-! ## What is checked of a RAID segment -/

namespace Mapper

variable {V : Type} {sub : String → Except LvmError (V × Nat)}
  {read : V → Nat → Nat → Except BlockError (List UInt8)} {name : String} {seg : Segment}

/-- What a RAID segment is resolved from, and the checks that are made of it.  The layout is
checked at level 10 only. -/
structure RaidChecks (sub : String → Except LvmError (V × Nat))
    (read : V → Nat → Nat → Except BlockError (List UInt8)) (name : String) (seg : Segment)
    (images : List (Option V)) (sb : DmRaidSuper) (level : Int) (raid10 : Option Raid10) :
    Prop where
  counted : seg.metadata.length = seg.images.length
  imaged : ∃ gone, Mapper.images sub seg = .ok (images, gone)
  recorded : raidSuper sub read seg.metadata none = .ok sb
  copied : nearCopies name level sb.layout images.length = .ok raid10
  sized : ∃ parity, mdLevel name sb.level = .ok (level, parity) ∧
    (level ≠ levelRaid1 → sb.chunk ≠ 0 ∧ parity < images.length)
  enough : survives level raid10 images = true

/-- The map of a RAID segment. -/
def raidMap (images : List (Option V)) (sb : DmRaidSuper) (level : Int)
    (raid10 : Option Raid10) : RaidMap V where
  level := level
  raid10 := raid10
  layout := sb.layout
  chunk := sb.chunk
  dataOffset := sb.dataOffset
  images := images

/-- A RAID segment is resolved when it passes the checks. -/
theorem raid_eq_ok {map : RunMap V} :
    raid sub read name seg = .ok map ↔ ∃ images sb level raid10,
      RaidChecks sub read name seg images sb level raid10 ∧
        map = .raid (raidMap images sb level raid10) := by
  unfold raid requireSurvives
  constructor
  · intro resolved
    obtain ⟨counted, resolved⟩ := refuseIf_bind_eq_ok.mp resolved
    obtain ⟨⟨images, gone⟩, imaged, resolved⟩ := bind_eq_ok.mp resolved
    obtain ⟨sb, recorded, resolved⟩ := bind_eq_ok.mp resolved
    obtain ⟨⟨level, parity⟩, leveled, resolved⟩ := bind_eq_ok.mp resolved
    obtain ⟨raid10, copied, resolved⟩ := bind_eq_ok.mp resolved
    obtain ⟨sized, resolved⟩ := refuseIf_bind_eq_ok.mp resolved
    obtain ⟨enough, resolved⟩ := refuseIf_bind_eq_ok.mp resolved
    cases resolved
    refine ⟨images, sb, level, raid10, ?_, rfl⟩
    refine ⟨not_ne_iff.mp counted, ⟨gone, imaged⟩, recorded, copied, ⟨parity, leveled, ?_⟩,
      not_not.mp enough⟩
    intro other
    by_contra small
    exact sized ⟨other, by omega⟩
  · rintro ⟨images, sb, level, raid10, checks, rfl⟩
    obtain ⟨gone, imaged⟩ := checks.imaged
    obtain ⟨parity, leveled, sized⟩ := checks.sized
    refine refuseIf_bind_eq_ok.mpr ⟨not_ne_iff.mpr checks.counted, ?_⟩
    refine bind_eq_ok.mpr ⟨_, imaged, ?_⟩
    refine bind_eq_ok.mpr ⟨_, checks.recorded, ?_⟩
    refine bind_eq_ok.mpr ⟨_, leveled, ?_⟩
    refine bind_eq_ok.mpr ⟨_, checks.copied, ?_⟩
    refine refuseIf_bind_eq_ok.mpr ⟨?_, ?_⟩
    · rintro ⟨other, small⟩
      have := sized other
      omega
    · exact refuseIf_bind_eq_ok.mpr ⟨not_not.mpr checks.enough, rfl⟩

end Mapper

/-- The layout a superblock records has a place at the level `md` reads it at. -/
def DmRaidSuper.Placed (sb : DmRaidSuper) : Prop :=
  (sb.level = 4 ∨ sb.level = 5 → LayoutPlaced levelRaid5 sb.layout) ∧
    (sb.level = 6 → LayoutPlaced levelRaid6 sb.layout)

/-- The levels a dm-raid superblock is read at. -/
theorem Mapper.mdLevel_eq_ok {name : String} {recorded level : Int} {parity : Nat}
    (leveled : mdLevel name recorded = .ok (level, parity)) :
    recorded = 1 ∧ level = levelRaid1 ∧ parity = 0 ∨
      (recorded = 4 ∨ recorded = 5) ∧ level = levelRaid5 ∧ parity = 1 ∨
      recorded = 6 ∧ level = levelRaid6 ∧ parity = 2 ∨
      recorded = 10 ∧ level = levelRaid10 ∧ parity = 0 := by
  unfold mdLevel at leveled
  split at leveled
  next one =>
    cases leveled
    exact .inl ⟨one, rfl, rfl⟩
  next =>
    split at leveled
    next five =>
      cases leveled
      exact .inr (.inl ⟨five, rfl, rfl⟩)
    next =>
      split at leveled
      next six =>
        cases leveled
        exact .inr (.inr (.inl ⟨six, rfl, rfl⟩))
      next =>
        split at leveled
        next ten =>
          cases leveled
          exact .inr (.inr (.inr ⟨ten, rfl, rfl⟩))
        next => cases leveled

/-- A superblock's layout is placed when it is at the level it is read at. -/
theorem DmRaidSuper.placed_iff {sb : DmRaidSuper} {name : String} {level : Int} {parity : Nat}
    (leveled : Mapper.mdLevel name sb.level = .ok (level, parity)) :
    sb.Placed ↔ (level = levelRaid5 ∨ level = levelRaid6 → LayoutPlaced level sb.layout) := by
  unfold Placed
  rcases Mapper.mdLevel_eq_ok leveled with ⟨own, rfl, -⟩ | ⟨own, rfl, -⟩ | ⟨own, rfl, -⟩ |
    ⟨own, rfl, -⟩
  · have other : ¬ (levelRaid1 = levelRaid5 ∨ levelRaid1 = levelRaid6) := by decide
    simp [own, other]
  · have other : sb.level ≠ 6 := by omega
    simp [own, other]
  · simp [own]
  · have other : ¬ (levelRaid10 = levelRaid5 ∨ levelRaid10 = levelRaid6) := by decide
    simp [own, other]

/-! ## Volumes of placed segments -/

namespace Mapper

/-- A segment of a RAID type is resolved by its superblock. -/
theorem mapSegment_of_raidKind {V : Type} {sub : String → Except LvmError (V × Nat)}
    {read : V → Nat → Nat → Except BlockError (List UInt8)} {mapper : Mapper} {name : String}
    {seg : Segment} (kind : isRaidKind seg.kind = true) :
    mapSegment sub read mapper name seg = raid sub read name seg := by
  have other : ∀ known ∈ ["striped", "thin", "thin-pool", "mirror"], seg.kind ≠ known := by
    intro known listed same
    have none : ∀ known ∈ ["striped", "thin", "thin-pool", "mirror"],
        isRaidKind known = false := by decide +kernel
    rw [same, none known listed] at kind
    cases kind
  unfold mapSegment
  rw [if_neg (other _ (by simp)), if_neg (other _ (by simp)), if_neg (other _ (by simp)),
    if_neg (other _ (by simp)), if_pos kind]

section Segments

variable {V : Type} {sub : String → Except LvmError (V × Nat)}
  {read : V → Nat → Nat → Except BlockError (List UInt8)} {mapper : Mapper} {name : String}
  {seg : Segment} {placed : V → Prop}
  (subs : ∀ part volume size, sub part = .ok (volume, size) → placed volume)

include subs

theorem imageRuns_placed {names : List String} {gone : Option LvmError}
    {found : List (Option V) × Option LvmError} (imaged : imageRuns sub names gone = .ok found) :
    ∀ image, some image ∈ found.1 → placed image := by
  induction names generalizing gone found with
  | nil =>
      cases imaged
      intro image listed
      cases listed
  | cons part names ih =>
      unfold imageRuns at imaged
      split at imaged
      next runs size resolved =>
        obtain ⟨rest, others, imaged⟩ := bind_eq_ok.mp imaged
        cases imaged
        intro image listed
        rcases List.mem_cons.mp listed with first | later
        · cases first
          exact subs part runs size resolved
        · exact ih others image later
      next =>
        obtain ⟨rest, others, imaged⟩ := bind_eq_ok.mp imaged
        cases imaged
        intro image listed
        rcases List.mem_cons.mp listed with first | later
        · cases first
        · exact ih others image later
      next => cases imaged

theorem images_placed {found : List (Option V) × Option LvmError}
    (imaged : images sub seg = .ok found) : ∀ image, some image ∈ found.1 → placed image := by
  obtain ⟨-, imaged⟩ := refuseIf_bind_eq_ok.mp imaged
  exact imageRuns_placed subs imaged

/-- A RAID segment is placed when the layout it records is. -/
theorem raid_placed {map : RunMap V} (resolved : raid sub read name seg = .ok map)
    (recorded : ∀ sb, raidSuper sub read seg.metadata none = .ok sb → sb.Placed) :
    map.Placed placed := by
  obtain ⟨images, sb, level, raid10, checks, rfl⟩ := raid_eq_ok.mp resolved
  obtain ⟨gone, imaged⟩ := checks.imaged
  obtain ⟨parity, leveled, -⟩ := checks.sized
  refine ⟨fun other uncopied four => ?_, images_placed subs imaged⟩
  have own := (DmRaidSuper.placed_iff leveled).mp (recorded sb checks.recorded)
  have copied := checks.copied
  change level ≠ levelRaid1 at other
  change raid10 = none at uncopied
  refine own ?_
  rcases mdLevel_eq_ok leveled with ⟨-, rfl, -⟩ | ⟨-, rfl, -⟩ | ⟨-, rfl, -⟩ | ⟨-, rfl, -⟩
  · exact absurd rfl other
  · exact .inl rfl
  · exact .inr rfl
  · unfold nearCopies at copied
    rw [if_pos rfl, uncopied] at copied
    obtain ⟨-, copied⟩ := refuseIf_bind_eq_ok.mp copied
    obtain ⟨-, copied⟩ := refuseIf_bind_eq_ok.mp copied
    cases copied

/-- The legs of a mirror have no rows to place. -/
theorem mirror_placed {map : RunMap V} (resolved : mirror sub seg = .ok map) :
    map.Placed placed := by
  unfold mirror at resolved
  obtain ⟨⟨images, gone⟩, imaged, resolved⟩ := bind_eq_ok.mp resolved
  obtain ⟨-, -, resolved⟩ := bind_eq_ok.mp resolved
  cases resolved
  exact ⟨fun other => absurd rfl other, images_placed subs imaged⟩

theorem thin_placed {map : RunMap V} (resolved : thin sub read mapper name seg = .ok map) :
    map.Placed placed := by
  unfold thin at resolved
  obtain ⟨-, resolved⟩ := refuseIf_bind_eq_ok.mp resolved
  obtain ⟨-, resolved⟩ := refuseIf_bind_eq_ok.mp resolved
  split at resolved
  next =>
    obtain ⟨⟨tdata, tmeta⟩, -, resolved⟩ := bind_eq_ok.mp resolved
    obtain ⟨⟨metadata, _⟩, ownMetadata, resolved⟩ := bind_eq_ok.mp resolved
    obtain ⟨⟨data, _⟩, ownData, resolved⟩ := bind_eq_ok.mp resolved
    obtain ⟨sb, -, resolved⟩ := bind_eq_ok.mp resolved
    obtain ⟨found, -, resolved⟩ := bind_eq_ok.mp resolved
    obtain ⟨root, -, resolved⟩ := bind_eq_ok.mp resolved
    cases resolved
    exact ⟨subs tmeta metadata _ ownMetadata, subs tdata data _ ownData⟩
  next => cases resolved

theorem mapSegment_placed {map : RunMap V}
    (resolved : mapSegment sub read mapper name seg = .ok map)
    (recorded : isRaidKind seg.kind = true →
      ∀ sb, raidSuper sub read seg.metadata none = .ok sb → sb.Placed) :
    map.Placed placed := by
  unfold mapSegment at resolved
  split at resolved
  next =>
    obtain ⟨stripes, rfl, -⟩ := striped_eq_ok resolved
    trivial
  next =>
    split at resolved
    next => exact thin_placed subs resolved
    next =>
      split at resolved
      next => cases resolved
      next =>
        split at resolved
        next => exact mirror_placed subs resolved
        next =>
          split at resolved
          next kind => exact raid_placed subs resolved (recorded kind)
          next => cases resolved

end Segments

/-- Each run is one of a segment that the volume has. -/
theorem resolves_of_mapSegments {V : Type} {sub : String → Except LvmError (V × Nat)}
    {read : V → Nat → Nat → Except BlockError (List UInt8)} {mapper : Mapper} {name : String}
    {segs : List Segment} {next : Nat} {runs : List (Run V)} {last : Nat}
    (mapped : mapSegments sub read mapper name segs next = .ok (runs, last)) :
    List.Forall₂ (Resolves mapper sub read name) segs runs := by
  induction segs generalizing next runs with
  | nil =>
      cases mapped
      exact .nil
  | cons seg segs ih =>
      obtain ⟨-, run, others, rfl, -, resolved, later⟩ := mapSegments_cons mapped
      exact .cons resolved (ih later)

/-- The RAID segments of a volume of the group record layouts that have a place. -/
def Records (mapper : Mapper) (levels : Nat) (info : LogicalVolumeInfo) : Prop :=
  ∀ seg ∈ info.segments, 0 < seg.extentCount → isRaidKind seg.kind = true →
    ∀ sb, raidSuper (mapper.map levels) (readVolume mapper.devices levels) seg.metadata none =
      .ok sb → sb.Placed

/-- A volume is placed when the RAID segments of every volume of its group are. -/
theorem map_placed {mapper : Mapper}
    (records : ∀ part info, mapper.lv part = .ok info → (mapper.map 3 part).isOk = true →
      mapper.Records 2 info)
    {levels : Nat} (bounded : levels ≤ 3) {name : String} {volume : Volume levels} {size : Nat}
    (mapped : mapper.map levels name = .ok (volume, size)) : VolumePlaced levels volume := by
  induction levels generalizing name size with
  | zero => exact nomatch volume
  | succ levels ih =>
      obtain ⟨twin, opens⟩ := map_deeper bounded mapped
      obtain ⟨info, last, named, resolved, -⟩ := map_eq_ok mapped
      have own := records name info named (by rw [opens]; rfl)
      intro run listed positive
      obtain ⟨seg, there, resolves⟩ := exists_of_mem_right (resolves_of_mapSegments resolved) listed
      refine mapSegment_placed (fun part volume size => ih (by omega)) resolves.map ?_
      intro kind sb recorded
      refine own seg there ?_ kind sb (raidSuper_deeper (by omega) recorded)
      rw [resolves.len] at positive
      exact Nat.pos_of_mul_pos_right positive

end Mapper

/-! ## Which groups read without a stop -/

/-- The volumes that open record layouts with a place in every RAID segment that has a byte. -/
def RecordsPlaced (devices : List BlockRead) : Prop :=
  ∀ mapper name volume, Mapper.ofDevices devices = .ok mapper →
    LogicalVolume.openVolume devices name = .ok volume → mapper.Records 2 volume.info

/-- No read of a volume that opens stops. -/
def ReadsPlaced (devices : List BlockRead) : Prop :=
  ∀ name volume, LogicalVolume.openVolume devices name = .ok volume →
    ∀ offset len, offset + len ≤ volume.size →
      readVolumeTrapping volume.devices 3 volume.runs offset len ≠ trap

/-- Where the layouts have a place, the stops do not matter to what is read. -/
theorem readVolumeTrapping_eq {devices : List BlockRead} (records : RecordsPlaced devices)
    {name : String} {volume : LogicalVolume}
    (opened : LogicalVolume.openVolume devices name = .ok volume) (offset len : Nat) :
    readVolumeTrapping volume.devices 3 volume.runs offset len =
      exact (readVolume volume.devices 3 volume.runs offset len) := by
  obtain ⟨sameDevices, mapper, found, ofDevices, named, mapped⟩ :=
    LogicalVolume.openVolume_eq_ok opened
  refine exact_readVolume _ (mapper.map_placed ?_ (Nat.le_refl 3) mapped) offset len
  intro part info named opens
  cases result : mapper.map 3 part with
  | error error =>
      rw [result] at opens
      cases opens
  | ok volume =>
      exact records mapper part _ found (openVolume_of_map found named result)

theorem readsPlaced_of_records {devices : List BlockRead} (records : RecordsPlaced devices) :
    ReadsPlaced devices := by
  intro name volume opened offset len _ stopped
  rw [readVolumeTrapping_eq records opened] at stopped
  exact exact_ne_trap _ stopped

/-- The first byte of a RAID segment without a place cannot be read. -/
theorem records_of_readsPlaced {devices : List BlockRead} (reads : ReadsPlaced devices)
    (exact : ∀ name volume, LogicalVolume.openVolume devices name = .ok volume →
      ∀ mapper, Mapper.ofDevices devices = .ok mapper →
        Mapper.extents volume.info.segments * mapper.vg.extentSize < 2 ^ 64) :
    RecordsPlaced devices := by
  intro mapper name volume found opened seg listed some_extent kind sb recorded
  obtain ⟨sameDevices, own, foundOwn, ofDevices, named, mapped⟩ :=
    LogicalVolume.openVolume_eq_ok opened
  obtain rfl : mapper = own := by
    rw [found] at foundOwn
    exact Except.ok.inj foundOwn
  have small := exact name volume opened mapper found
  obtain ⟨info, last, namedInfo, resolved, size⟩ := Mapper.map_eq_ok mapped
  obtain rfl : volume.info = info := by
    rw [named] at namedInfo
    exact Except.ok.inj namedInfo
  obtain ⟨lastEq, tiled, places⟩ := Mapper.tiles_of_mapSegments resolved (by rwa [Nat.zero_add])
  rw [Nat.zero_add] at lastEq
  rw [Nat.zero_mul] at tiled
  subst lastEq
  rw [Nat.mod_eq_of_lt small] at size
  obtain ⟨run, there, start, resolves⟩ := exists_of_mem_left places listed
  have positive : 0 < run.len := by
    rw [resolves.len]
    exact Nat.mul_pos some_extent mapper.vg.extentSize_pos
  have inside := (tiled.inside (List.mem_map_of_mem there)).2
  change run.start + run.len ≤ _ at inside
  -- the segment is resolved by its superblock, whose layout is then the run's
  have raided : Mapper.raid (mapper.map 2) (readVolume mapper.devices 2) name seg = .ok run.map := by
    rw [← Mapper.mapSegment_of_raidKind kind]
    exact resolves.map
  obtain ⟨images, own, level, raid10, checks, mapEq⟩ := Mapper.raid_eq_ok.mp raided
  have ownEq := checks.recorded
  rw [recorded] at ownEq
  cases ownEq
  obtain ⟨parity, leveled, -⟩ := checks.sized
  by_contra unplaced
  rw [DmRaidSuper.placed_iff leveled] at unplaced
  simp only [not_forall] at unplaced
  obtain ⟨rows, bad⟩ := unplaced
  have copied := checks.copied
  have uncopied : raid10 = none := by
    unfold Mapper.nearCopies at copied
    rw [if_neg (by rcases rows with rfl | rfl <;> decide)] at copied
    cases copied
    rfl
  have stops : ¬ (Mapper.raidMap images sb level raid10).Placed := by
    intro placed
    refine bad (placed ?_ uncopied ?_)
    · change level ≠ levelRaid1
      rcases rows with rfl | rfl <;> decide
    · change level ≠ levelRaid4
      rcases rows with rfl | rfl <;> decide
  have served := find_run_of_mem tiled small there positive
  rw [Nat.add_zero, ← Nat.mod_eq_of_lt (by omega : run.start < 2 ^ 64)] at served
  have trapped := @readRunsTrapping_of_not _ (readVolumeTrapping volume.devices 2) volume.devices
    _ _ _ _ served mapEq stops 1 Nat.one_pos
  exact reads name volume opened run.start 1 (by omega) trapped

/-- The levels 5 and 6 of an array are assembled with a layout that has a place only. -/
theorem layoutPlaced_of_geometry {lead : MdSuperblock} {slots : List (Option Member)}
    {geometry : Geometry} (accepted : parityGeometry lead slots = .ok geometry)
    (level : lead.level = levelRaid5 ∨ lead.level = levelRaid6) :
    LayoutPlaced lead.level lead.layout := by
  unfold parityGeometry at accepted
  obtain ⟨-, -, accepted⟩ := bind_eq_ok.mp accepted
  obtain ⟨-, accepted⟩ := refuseIf_bind_eq_ok.mp accepted
  obtain ⟨six, accepted⟩ := refuseIf_bind_eq_ok.mp accepted
  obtain ⟨five, -⟩ := refuseIf_bind_eq_ok.mp accepted
  unfold LayoutPlaced
  rcases level with own | own
  · rw [own] at five ⊢
    rw [if_neg (by decide)]
    simpa using five
  · rw [own] at six ⊢
    rw [if_pos rfl]
    simpa using six

/-- A RAID segment of level 5 or 6 is resolved with a layout `md` accepts unless its superblock
passes the other checks with another, and reads stop in a group unless its superblocks record
such layouts. -/
theorem raid_layouts_iff {V : Type} (sub : String → Except LvmError (V × Nat))
    (read : V → Nat → Nat → Except BlockError (List UInt8)) (name : String) (seg : Segment)
    (devices : List BlockRead) :
    ((∀ map, Mapper.raid sub read name seg = .ok (.raid map) →
        map.level = levelRaid5 ∨ map.level = levelRaid6 → LayoutPlaced map.level map.layout) ↔
      ∀ images sb level raid10,
        Mapper.RaidChecks sub read name seg images sb level raid10 → sb.Placed) ∧
    (RecordsPlaced devices → ReadsPlaced devices) ∧
      ((∀ name volume, LogicalVolume.openVolume devices name = .ok volume →
          ∀ mapper, Mapper.ofDevices devices = .ok mapper →
            Mapper.extents volume.info.segments * mapper.vg.extentSize < 2 ^ 64) →
        ReadsPlaced devices → RecordsPlaced devices) := by
  refine ⟨⟨?_, ?_⟩, readsPlaced_of_records, ?_⟩
  · intro accepts images sb level raid10 checks
    obtain ⟨parity, leveled, -⟩ := checks.sized
    rw [DmRaidSuper.placed_iff leveled]
    exact accepts _ (Mapper.raid_eq_ok.mpr ⟨images, sb, level, raid10, checks, rfl⟩)
  · intro records map resolved rows
    obtain ⟨images, sb, level, raid10, checks, same⟩ := Mapper.raid_eq_ok.mp resolved
    cases same
    obtain ⟨parity, leveled, -⟩ := checks.sized
    exact (DmRaidSuper.placed_iff leveled).mp (records images sb level raid10 checks) rows
  · intro exact reads
    exact records_of_readsPlaced reads exact

/-! ## A layout without a place -/

/-- The dm-raid superblock of a RAID6 segment with layout 7 and chunks of one sector. -/
def unknownSuper : List UInt8 :=
  encode 4 dmRaidMagic ++ List.replicate 44 0 ++ encode 4 6 ++ encode 4 7 ++ encode 4 1 ++
    List.replicate 60 0

/-- The text of a volume of one extent. -/
def subVolume (name : String) (extent : Nat) : List String :=
  [name ++ " \x7b", "segment1 \x7b", "start_extent = 0", "extent_count = 1",
    "type = \"striped\"", "stripe_count = 1", "stripes = [\"pv0\", " ++ toString extent ++ "]",
    "\x7d", "\x7d"]

/-- A volume over three images. -/
def unknownLayout : WrittenPv where
  letter := 0x61
  text := textOf ([
    "vg \x7b", "id = \"vg\"", "seqno = 1", "extent_size = 1",
    "physical_volumes \x7b",
    "pv0 \x7b", "id = \"aaaaaaaa-aaaaaaaa-aaaaaaaa-aaaaaaaa\"", "pe_start = 4", "pe_count = 6", "\x7d",
    "\x7d",
    "logical_volumes \x7b",
    "lv \x7b", "segment1 \x7b", "start_extent = 0", "extent_count = 1", "type = \"raid6\"",
    "raids = [\"m\", \"a\", \"n\", \"b\", \"o\", \"c\"]", "\x7d", "\x7d"] ++
    subVolume "m" 0 ++ subVolume "a" 1 ++ subVolume "n" 2 ++ subVolume "b" 3 ++ subVolume "o" 4 ++
    subVolume "c" 5 ++ ["\x7d", "\x7d"])
  data := unknownSuper ++ List.replicate 2952 0
  some_text := by decide +kernel
  text_le := by decide +kernel
  no_nul := by decide +kernel
  data_lt := by decide +kernel

def unknownVg : VolumeGroup :=
  let one (name : String) (extent : Nat) : LogicalVolumeInfo :=
    ⟨name, "", [⟨0, 1, "striped", 0, [⟨"pv0", extent⟩], [], [], none, none, none,
      oneStripe_sized extent⟩]⟩
  ⟨"vg", "vg", 1, 512, [⟨"pv0", "aaaaaaaaaaaaaaaaaaaaaaaaaaaaaaaa", 2048, 6⟩],
    [⟨"lv", "", [⟨0, 1, "raid6", 0, [], ["a", "b", "c"], ["m", "n", "o"], none, none, none,
      unstriped_sized⟩]⟩, one "m" 0, one "a" 1, one "n" 2, one "b" 3, one "o" 4, one "c" 5],
    oneSector_pos⟩

/-- The mapper of the volume, and what a read of its first byte comes to. -/
def unknownMapper : Mapper where
  vg := unknownVg
  uuidToDev := [(unknownLayout.label.uuid, 0)]
  devices := [unknownLayout.device.toBlockRead]

theorem ofDevices_unknownLayout :
    Mapper.ofDevices [unknownLayout.device.toBlockRead] = .ok unknownMapper := by
  have parsed : (parseMetadata (Utf8.fromUtf8Lossy unknownLayout.text) >>=
      VolumeGroup.fromMetadata) = .ok unknownVg := by
    rw [parseMetadata_ascii (by decide +kernel)]
    decide +kernel
  exact WrittenPv.ofDevices_device parsed

/-- The volume opens, and a read of its first byte comes to the arm that is not to be reached. -/
theorem openVolume_unknownLayout :
    ∃ volume, LogicalVolume.openVolume [unknownLayout.device.toBlockRead] "lv" = .ok volume ∧
      0 + 1 ≤ volume.size ∧ readVolumeTrapping volume.devices 3 volume.runs 0 1 = trap := by
  have named : (unknownMapper.lv "lv").isOk = true := by decide +kernel
  have mapped : ((unknownMapper.map 3 "lv").toOption.any fun found => decide (0 < found.2) &&
      (readVolumeTrapping unknownMapper.devices 3 found.1 0 1).run.isNone) = true := by
    decide +kernel
  obtain ⟨info, found, opened, holds⟩ := exists_openVolume ofDevices_unknownLayout named mapped
  rw [Bool.and_eq_true, decide_eq_true_eq, Option.isNone_iff_eq_none] at holds
  exact ⟨_, opened, Nat.succ_le_of_lt holds.1, holds.2⟩

end DiskPartitions
