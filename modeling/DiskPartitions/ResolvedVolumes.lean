import DiskPartitions.AlikePrograms
import DiskPartitions.LogicalVolumes
import Mathlib.Data.List.Forall2

/-!
# Volumes resolved over other devices

What a volume is resolved to depends on the devices only through the one each physical
volume it touches is found on.  Where two mappers of one group find the same device for
each of them, wherever in their lists, they resolve a volume alike: with the same errors,
or to runs that read the same.
-/

namespace DiskPartitions

open Refusals BufferedReads

/-! ## Runs that read the same -/

section SameReads

variable {V W : Type} (read : V → Nat → Nat → Except BlockError (List UInt8))
  (other : W → Nat → Nat → Except BlockError (List UInt8)) (devices others : List BlockRead)

/-- Two sub-volumes read the same. -/
def SameReads (first : V) (second : W) : Prop :=
  read first = other second

/-- Images that are the same slot by slot, or missing from both. -/
def SameImages (images : List (Option V)) (again : List (Option W)) : Prop :=
  List.Forall₂ (Option.Rel (SameReads read other)) images again

/-- Two maps of a run read the same. -/
def SameMap (first : RunMap V) (second : RunMap W) : Prop :=
  readMap read devices first = readMap other others second

/-- Two runs cover the same bytes and read the same. -/
structure SameRun (first : Run V) (second : Run W) : Prop where
  start : first.start = second.start
  len : first.len = second.len
  map : SameMap read other devices others first.map second.map

variable {read other devices others}

theorem find_sameRun {runs : List (Run V)} {again : List (Run W)}
    (same : List.Forall₂ (SameRun read other devices others) runs again) (pos : Nat) :
    Option.Rel (SameRun read other devices others)
      (runs.find? fun r => r.start ≤ pos ∧ pos < (r.start + r.len) % 2 ^ 64)
      (again.find? fun r => r.start ≤ pos ∧ pos < (r.start + r.len) % 2 ^ 64) := by
  induction same with
  | nil => exact .none
  | cons first _ ih =>
      rw [List.find?_cons, List.find?_cons, first.start, first.len]
      split
      next => exact .some first
      next => exact ih

theorem ends_sameRun {runs : List (Run V)} {again : List (Run W)}
    (same : List.Forall₂ (SameRun read other devices others) runs again) :
    runs.map (fun r => (r.start + r.len) % 2 ^ 64) =
      again.map fun r => (r.start + r.len) % 2 ^ 64 := by
  induction same with
  | nil => rfl
  | cons first _ ih => rw [List.map_cons, List.map_cons, first.start, first.len, ih]

/-- Runs that read the same one by one make volumes that read the same. -/
theorem readRuns_congr {runs : List (Run V)} {again : List (Run W)}
    (same : List.Forall₂ (SameRun read other devices others) runs again) :
    readRuns read devices runs = readRuns other others again := by
  have pieces : readRunPiece read devices runs = readRunPiece other others again := by
    funext position left
    unfold readRunPiece
    dsimp only
    have found := find_sameRun same (position % 2 ^ 64)
    have last : (runs.getLast?.map fun r => (r.start + r.len) % 2 ^ 64) =
        again.getLast?.map fun r => (r.start + r.len) % 2 ^ 64 := by
      rw [← List.getLast?_map, ← List.getLast?_map, ends_sameRun same]
    generalize runs.find? _ = run at found ⊢
    generalize again.find? _ = twin at found ⊢
    cases found with
    | none => rw [last]
    | some own =>
        dsimp only
        rw [own.start, own.len, own.map]
  funext offset len
  unfold readRuns
  rw [pieces]

/-- The missing items of a list are known from the ones that are there. -/
theorem countP_isNone {α : Type} (items : List (Option α)) :
    items.countP Option.isNone = (items.map Option.isSome).countP (!·) := by
  rw [List.countP_map]
  exact List.countP_congr fun item _ => by cases item <;> simp

namespace SameImages

variable {images : List (Option V)} {again : List (Option W)} (same : SameImages read other images again)

include same

theorem length_eq : images.length = again.length := List.Forall₂.length_eq same

theorem getD_rel (slot : Nat) :
    Option.Rel (SameReads read other) (images.getD slot none) (again.getD slot none) :=
  Slices.rel_getD same slot

theorem present_eq : images.map Option.isSome = again.map Option.isSome := by
  unfold SameImages at same
  induction same with
  | nil => rfl
  | cons first _ ih =>
      rw [List.map_cons, List.map_cons, ih]
      cases first with
      | none => rfl
      | some _ => rfl

/-- The same levels survive what is missing. -/
theorem survives_eq (level : Int) (raid10 : Option Raid10) :
    survives level raid10 images = survives level raid10 again := by
  have missing : images.countP Option.isNone = again.countP Option.isNone := by
    rw [countP_isNone, countP_isNone, same.present_eq]
  have present : ∀ slot, (images.getD slot none).isSome = (again.getD slot none).isSome := by
    intro slot
    have rel := same.getD_rel slot
    generalize images.getD slot none = image at rel ⊢
    generalize again.getD slot none = twin at rel ⊢
    cases rel with
    | none => rfl
    | some _ => rfl
  unfold survives
  simp only [missing, same.length_eq, present]

theorem readImages_eq (place want : Nat) (last : Option BlockError) :
    readImages read place want images last = readImages other place want again last := by
  unfold SameImages at same
  induction same generalizing last with
  | nil => rfl
  | cons first _ ih =>
      cases first with
      | none => exact ih last
      | some own =>
          unfold SameReads at own
          rw [readImages, readImages, own]
          split
          next => rfl
          next => exact ih _

/-- A RAID segment over images that are the same reads the same. -/
theorem raid {map : RaidMap V} (images_eq : map.images = images) :
    SameMap read other devices others (.raid map) (.raid { map with images := again }) := by
  have length := same.length_eq
  have member : map.readMember read = RaidMap.readMember other { map with images := again } := by
    funext slot off len
    unfold RaidMap.readMember
    rw [images_eq]
    generalize found : images.getD slot none = image
    generalize twin : again.getD slot none = twin
    have rel := same.getD_rel slot
    rw [found, twin] at rel
    cases rel with
    | none => rfl
    | some own =>
        unfold SameReads at own
        dsimp only
        rw [own]
  have striping : map.striping = RaidMap.striping { map with images := again } := by
    unfold RaidMap.striping
    rw [images_eq, length]
  funext within want
  change map.readPiece read within want = RaidMap.readPiece other { map with images := again } _ _
  unfold RaidMap.readPiece
  rw [member, striping, images_eq, same.readImages_eq]

end SameImages

/-- A thin volume over sub-volumes that are the same reads the same. -/
theorem sameMap_thin {metadata data : V} {again twin : W} (sameMetadata : SameReads read other metadata again)
    (sameData : SameReads read other data twin) (block root : Nat) :
    SameMap read other devices others (.thin { block, metadata, data, root })
      (.thin { block, metadata := again, data := twin, root }) := by
  unfold SameReads at sameMetadata sameData
  funext within want
  change readThin read { block, metadata, data, root } within want =
    readThin other { block, metadata := again, data := twin, root } within want
  unfold readThin
  dsimp only
  rw [sameMetadata, sameData]

/-- Stripes on the same devices read the same, wherever the devices are listed. -/
theorem sameMap_striped {stripes again : List (Nat × Nat)}
    (same : List.Forall₂ (fun stripe twin => stripe.2 = twin.2 ∧
      ∃ device, devices[stripe.1]? = some device ∧ others[twin.1]? = some device) stripes again)
    (some_stripes : stripes ≠ []) (stripeSize : Nat) :
    SameMap read other devices others (.striped stripeSize stripes)
      (.striped stripeSize again) := by
  have length := same.length_eq
  have picked : ∀ index, index < stripes.length → ∀ off len,
      readDevice devices (stripes.getD index (0, 0)).1 ((stripes.getD index (0, 0)).2 + off) len =
        readDevice others (again.getD index (0, 0)).1 ((again.getD index (0, 0)).2 + off) len := by
    intro index inside off len
    have own := List.forall₂_iff_get.mp same
    obtain ⟨offset, device, here, there⟩ := own.2 index inside (length ▸ inside)
    rw [List.getD_eq_getElem _ _ inside, List.getD_eq_getElem _ _ (length ▸ inside)]
    unfold readDevice
    rw [List.get_eq_getElem, List.get_eq_getElem] at offset
    rw [List.get_eq_getElem] at here there
    rw [here, there, offset]
  have positive : 0 < stripes.length := List.length_pos_iff.mpr some_stripes
  funext within want
  change readStriped devices stripeSize stripes within want =
    readStriped others stripeSize again within want
  unfold readStriped
  rw [← length]
  split
  next => exact picked 0 positive _ _
  next =>
    dsimp only
    rw [Nat.add_assoc, Nat.add_assoc]
    exact picked _ (Nat.mod_lt _ positive) _ _

end SameReads

/-! ## Resolving over other devices -/

theorem orRefuse_matched {α γ : Type} {related : α → γ → Prop} {first : Option α}
    {second : Option γ} (same : Option.Rel related first second) (error : LvmError) :
    Matched related (orRefuse first error) (orRefuse second error) := by
  cases same with
  | none => exact .error error
  | some own => exact .ok own

/-- Two mappers find the same device for a physical volume, or none. -/
def SameDevice (mapper twin : Mapper) (uuid : String) : Prop :=
  Option.Rel (fun dev again => ∃ device, mapper.devices[dev]? = some device ∧
    twin.devices[again]? = some device) (mapper.deviceOf uuid) (twin.deviceOf uuid)

/-- Resolving a sub-volume gives the same. -/
def SameSub {V W : Type} (read : V → Nat → Nat → Except BlockError (List UInt8))
    (other : W → Nat → Nat → Except BlockError (List UInt8)) (first : V × Nat) (second : W × Nat) :
    Prop :=
  SameReads read other first.1 second.1 ∧ first.2 = second.2

/-- The UUIDs of the physical volumes a segment's stripes are on. -/
def VolumeGroup.uuidsOf (vg : VolumeGroup) (seg : Segment) : List String :=
  seg.stripes.filterMap fun st =>
    (vg.physicalVolumes.find? fun pv => pv.name = st.pv).map PhysicalVolume.uuid

/-- The sub-volumes of a segment: its images and their metadata, or its pool's. -/
def VolumeGroup.partsOf (vg : VolumeGroup) (seg : Segment) : List String :=
  seg.images ++ seg.metadata ++
    match seg.thinPool.bind fun pool => vg.logicalVolumes.find? fun lv => lv.name = pool with
    | some pool => pool.segments.flatMap fun pseg => pseg.images ++ pseg.metadata
    | none => []

/-- The UUIDs of the physical volumes a volume touches, at most `levels` volumes deep. -/
def VolumeGroup.touched (vg : VolumeGroup) : Nat → String → List String
  | 0, _ => []
  | levels + 1, name =>
      match vg.logicalVolumes.find? fun lv => lv.name = name with
      | some info => info.segments.flatMap fun seg =>
          vg.uuidsOf seg ++ (vg.partsOf seg).flatMap (vg.touched levels)
      | none => []

namespace Mapper

variable {mapper twin : Mapper} (group : mapper.vg = twin.vg)

include group in
theorem stripeStart_matched {st : Stripe} (name : String) (perStripe : Nat)
    (same : ∀ pv, (mapper.vg.physicalVolumes.find? fun pv => pv.name = st.pv) = some pv →
      SameDevice mapper twin pv.uuid) :
    Matched (fun stripe again => stripe.2 = again.2 ∧ ∃ device,
        mapper.devices[stripe.1]? = some device ∧ twin.devices[again.1]? = some device)
      (mapper.stripeStart name perStripe st) (twin.stripeStart name perStripe st) := by
  unfold stripeStart
  rw [← group]
  cases found : mapper.vg.physicalVolumes.find? fun pv => pv.name = st.pv with
  | none => exact .error _
  | some pv =>
      have known : Option.Rel (fun first second => first = pv ∧ second = pv) (some pv) (some pv) :=
        .some ⟨rfl, rfl⟩
      refine (orRefuse_matched known _).bind ?_
      rintro _ _ ⟨rfl, rfl⟩
      refine (orRefuse_matched (same _ found) _).bind ?_
      rintro dev again ⟨device, here, there⟩
      refine Matched.bindSame _ fun _ => ?_
      refine Matched.bindSame _ fun _ => ?_
      dsimp only
      rw [here, there]
      refine Matched.bindSame _ fun _ => ?_
      exact .ok ⟨rfl, device, here, there⟩

section Sub

variable {V W : Type} {sub : String → Except LvmError (V × Nat)}
  {again : String → Except LvmError (W × Nat)}
  {read : V → Nat → Nat → Except BlockError (List UInt8)}
  {other : W → Nat → Nat → Except BlockError (List UInt8)}

include group in
theorem striped_matched {seg : Segment} (name : String)
    (same : ∀ uuid ∈ mapper.vg.uuidsOf seg, SameDevice mapper twin uuid) :
    Matched (SameMap read other mapper.devices twin.devices)
      (mapper.striped name seg) (twin.striped name seg) := by
  unfold striped
  dsimp only
  rw [← group]
  by_cases none : seg.stripes = []
  · have empty : seg.stripes.length = 0 := by rw [none, List.length_nil]
    simp only [empty, true_or, refuseIf, if_true, error_bind]
    exact .error _
  · refine Matched.bindSame _ fun _ => ?_
    have starts := Matched.mapM fun st listed =>
      stripeStart_matched group name (seg.extentCount / seg.stripes.length) fun pv found =>
        same pv.uuid (List.mem_filterMap.mpr ⟨st, listed, by rw [found, Option.map_some]⟩)
    refine starts.withOk.bind ?_
    rintro stripes again ⟨placed, read⟩
    have length := (mapM_eq_ok read).length_eq
    have some_stripes : stripes ≠ [] := by
      rintro rfl
      exact none (List.length_eq_zero_iff.mp length)
    refine Matched.bindSame _ fun _ => ?_
    exact .ok (sameMap_striped placed some_stripes _)

theorem imageRuns_matched {names : List String}
    (subs : ∀ name ∈ names, Matched (SameSub read other) (sub name) (again name))
    (gone : Option LvmError) :
    Matched (fun first second => SameImages read other first.1 second.1 ∧ first.2 = second.2)
      (imageRuns sub names gone) (imageRuns again names gone) := by
  induction names generalizing gone with
  | nil => exact .ok ⟨.nil, rfl⟩
  | cons name names ih =>
      rw [List.forall_mem_cons] at subs
      obtain ⟨head, tail⟩ := subs
      unfold imageRuns
      generalize sub name = first at head ⊢
      generalize again name = second at head ⊢
      cases head with
      | ok same =>
          refine (ih tail gone).bind ?_
          rintro ⟨images, missing⟩ ⟨twins, _⟩ ⟨rest, rfl⟩
          exact .ok ⟨.cons (.some same.1) rest, rfl⟩
      | error failure =>
          cases failure with
          | missingPv uuid =>
              refine (ih tail _).bind ?_
              rintro ⟨images, missing⟩ ⟨twins, _⟩ ⟨rest, rfl⟩
              exact .ok ⟨.cons .none rest, rfl⟩
          | _ => exact .error _

theorem raidSuper_eq {names : List String}
    (subs : ∀ name ∈ names, Matched (SameSub read other) (sub name) (again name))
    (gone : Option LvmError) :
    raidSuper sub read names gone = raidSuper again other names gone := by
  induction names generalizing gone with
  | nil => rfl
  | cons name names ih =>
      rw [List.forall_mem_cons] at subs
      obtain ⟨head, tail⟩ := subs
      unfold raidSuper
      generalize sub name = first at head ⊢
      generalize again name = second at head ⊢
      cases head with
      | ok same =>
          obtain ⟨reads, _⟩ := same
          unfold SameReads at reads
          dsimp only
          rw [reads]
      | error failure =>
          cases failure with
          | missingPv uuid => exact ih tail _
          | _ => rfl

theorem images_matched {seg : Segment}
    (subs : ∀ name ∈ seg.images, Matched (SameSub read other) (sub name) (again name)) :
    Matched (fun first second => SameImages read other first.1 second.1 ∧ first.2 = second.2)
      (images sub seg) (images again seg) :=
  Matched.bindSame _ fun _ => imageRuns_matched subs none

theorem raid_matched {seg : Segment} (name : String) (devices others : List BlockRead)
    (images : ∀ name ∈ seg.images, Matched (SameSub read other) (sub name) (again name))
    (metadata : ∀ name ∈ seg.metadata, Matched (SameSub read other) (sub name) (again name)) :
    Matched (SameMap read other devices others) (raid sub read name seg)
      (raid again other name seg) := by
  unfold raid
  refine Matched.bindSame _ fun _ => ?_
  refine (images_matched images).bind ?_
  rintro ⟨images, gone⟩ ⟨twins, _⟩ ⟨same, rfl⟩
  have length := SameImages.length_eq same
  dsimp only
  rw [raidSuper_eq metadata, ← length]
  refine Matched.bindSame _ fun sb => ?_
  refine Matched.bindSame _ fun level => ?_
  dsimp only
  refine Matched.bindSame _ fun raid10 => ?_
  refine Matched.bindSame _ fun _ => ?_
  unfold requireSurvives
  rw [SameImages.survives_eq same]
  refine Matched.bindSame _ fun _ => ?_
  exact .ok (SameImages.raid same rfl)

theorem mirror_matched {seg : Segment} (devices others : List BlockRead)
    (images : ∀ name ∈ seg.images, Matched (SameSub read other) (sub name) (again name)) :
    Matched (SameMap read other devices others) (mirror sub seg) (mirror again seg) := by
  unfold mirror
  refine (images_matched images).bind ?_
  rintro ⟨images, gone⟩ ⟨twins, _⟩ ⟨same, rfl⟩
  dsimp only
  unfold requireSurvives
  rw [SameImages.survives_eq same]
  refine Matched.bindSame _ fun _ => ?_
  exact .ok (SameImages.raid same rfl)

/-- The sub-volumes of a pool are among the parts of its thin segments. -/
theorem poolVolumes_parts {seg : Segment} {name pool tdata tmeta : String}
    (own : seg.thinPool = some pool) (found : mapper.poolVolumes name pool = .ok (tdata, tmeta)) :
    tdata ∈ mapper.vg.partsOf seg ∧ tmeta ∈ mapper.vg.partsOf seg := by
  unfold poolVolumes at found
  obtain ⟨info, named, found⟩ := bind_eq_ok.mp found
  unfold lv at named
  rw [orRefuse_eq_ok] at named
  split at found
  next pseg only =>
    split at found
    next images metadata _ =>
      cases found
      unfold VolumeGroup.partsOf
      simp [*]
    next => cases found
  next => cases found

include group in
theorem thin_matched {seg : Segment} (name : String) (devices others : List BlockRead)
    (subs : ∀ name ∈ mapper.vg.partsOf seg, Matched (SameSub read other) (sub name) (again name)) :
    Matched (SameMap read other devices others) (thin sub read mapper name seg)
      (thin again other twin name seg) := by
  have pools : ∀ pool, mapper.poolVolumes name pool = twin.poolVolumes name pool := by
    intro pool
    unfold poolVolumes lv
    rw [group]
  unfold thin
  refine Matched.bindSame _ fun _ => ?_
  refine Matched.bindSame _ fun _ => ?_
  split
  next pool dev own _ =>
    rw [← pools]
    have found := (Matched.refl (mapper.poolVolumes name pool)).withOk
    refine found.bind ?_
    rintro ⟨tdata, tmeta⟩ _ ⟨rfl, found⟩
    obtain ⟨dataPart, metadataPart⟩ := poolVolumes_parts own found
    dsimp only
    refine (subs tmeta metadataPart).bind ?_
    rintro ⟨metadata, _⟩ ⟨twinMetadata, _⟩ ⟨sameMetadata, _⟩
    refine (subs tdata dataPart).bind ?_
    rintro ⟨data, _⟩ ⟨twinData, _⟩ ⟨sameData, _⟩
    dsimp only at sameMetadata sameData ⊢
    have reads := sameMetadata
    unfold SameReads at reads
    rw [reads]
    refine Matched.bindSame _ fun sb => ?_
    refine Matched.bindSame _ fun found => ?_
    refine Matched.bindSame _ fun root => ?_
    exact .ok (sameMap_thin sameMetadata sameData _ _)
  next => exact .error _

include group in
/-- A segment whose physical volumes and sub-volumes are the same is resolved alike. -/
theorem mapSegment_matched {seg : Segment} (name : String)
    (same : ∀ uuid ∈ mapper.vg.uuidsOf seg, SameDevice mapper twin uuid)
    (subs : ∀ name ∈ mapper.vg.partsOf seg, Matched (SameSub read other) (sub name) (again name)) :
    Matched (SameMap read other mapper.devices twin.devices) (mapSegment sub read mapper name seg)
      (mapSegment again other twin name seg) := by
  have images : ∀ name ∈ seg.images, Matched (SameSub read other) (sub name) (again name) :=
    fun name listed => subs name (by simp [VolumeGroup.partsOf, listed])
  have metadata : ∀ name ∈ seg.metadata, Matched (SameSub read other) (sub name) (again name) :=
    fun name listed => subs name (by simp [VolumeGroup.partsOf, listed])
  unfold mapSegment
  refine Matched.ite (fun _ => striped_matched group name same) fun _ => ?_
  refine Matched.ite (fun _ => thin_matched group name _ _ subs) fun _ => ?_
  refine Matched.ite (fun _ => .error _) fun _ => ?_
  refine Matched.ite (fun _ => mirror_matched _ _ images) fun _ => ?_
  exact Matched.ite (fun _ => raid_matched name _ _ images metadata) fun _ => .error _

include group in
theorem mapSegments_matched {segs : List Segment} (name : String)
    (same : ∀ seg ∈ segs, ∀ uuid ∈ mapper.vg.uuidsOf seg, SameDevice mapper twin uuid)
    (subs : ∀ seg ∈ segs, ∀ name ∈ mapper.vg.partsOf seg,
      Matched (SameSub read other) (sub name) (again name)) (next : Nat) :
    Matched (fun first second => List.Forall₂ (SameRun read other mapper.devices twin.devices)
        first.1 second.1 ∧ first.2 = second.2)
      (mapSegments sub read mapper name segs next)
      (mapSegments again other twin name segs next) := by
  induction segs generalizing next with
  | nil => exact .ok ⟨.nil, rfl⟩
  | cons seg segs ih =>
      rw [List.forall_mem_cons] at same subs
      unfold mapSegments
      rw [← group]
      refine Matched.bindSame _ fun _ => ?_
      refine Matched.bindSame _ fun _ => ?_
      refine (mapSegment_matched group name same.1 subs.1).bind fun map twinMap sameMap => ?_
      refine (ih same.2 subs.2 _).bind ?_
      rintro ⟨runs, last⟩ ⟨twinRuns, _⟩ ⟨rest, rfl⟩
      exact .ok ⟨.cons ⟨rfl, rfl, sameMap⟩ rest, rfl⟩

end Sub

include group in
/-- A volume whose physical volumes are found on the same devices is resolved alike. -/
theorem map_matched (levels : Nat) (name : String)
    (same : ∀ uuid ∈ mapper.vg.touched levels name, SameDevice mapper twin uuid) :
    Matched (SameSub (readVolume mapper.devices levels) (readVolume twin.devices levels))
      (mapper.map levels name) (twin.map levels name) := by
  induction levels generalizing name with
  | zero => exact .error _
  | succ levels ih =>
      unfold map lv
      rw [← group]
      cases found : mapper.vg.logicalVolumes.find? fun lv => lv.name = name with
      | none => exact .error _
      | some info =>
          have known : Option.Rel (fun first second => first = info ∧ second = info)
              (some info) (some info) := .some ⟨rfl, rfl⟩
          refine (orRefuse_matched known _).bind ?_
          rintro _ info ⟨rfl, rfl⟩
          have touched : ∀ seg ∈ info.segments, ∀ uuid,
              uuid ∈ mapper.vg.uuidsOf seg ∨
                (∃ part ∈ mapper.vg.partsOf seg, uuid ∈ mapper.vg.touched levels part) →
              SameDevice mapper twin uuid := by
            intro seg listed uuid near
            refine same uuid ?_
            rw [VolumeGroup.touched, found]
            dsimp only
            rw [List.mem_flatMap]
            refine ⟨seg, listed, ?_⟩
            rw [List.mem_append, List.mem_flatMap]
            exact near
          have segments := mapSegments_matched group name
            (fun seg listed uuid own => touched seg listed uuid (.inl own))
            (fun seg listed part own => ih part fun uuid inside =>
              touched seg listed uuid (.inr ⟨part, own, inside⟩)) 0
          refine segments.bind ?_
          rintro ⟨runs, next⟩ ⟨twinRuns, _⟩ ⟨sameRuns, rfl⟩
          exact .ok ⟨readRuns_congr sameRuns, rfl⟩

end Mapper

end DiskPartitions
