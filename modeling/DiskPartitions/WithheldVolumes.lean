import DiskPartitions.DeeperVolumes
import DiskPartitions.MetadataRings
import DiskPartitions.StripedVolumes
import DiskPartitions.WithheldArrays

/-!
# Volumes over devices that fail

The devices of a volume group may fail any of their reads.  As long as the newest metadata is
still found, a volume that opens is the one the devices would give if they never failed, and
what it answers is what that one answers.  Mirrors are asked image by image, so for them the
images must agree.
-/

namespace DiskPartitions

open Slices LittleEndian Refusals BufferedReads WithheldReads

/-- A device that answers nothing but what another one answers. -/
structure BlockRead.Withholds (dev sure : BlockRead) : Prop where
  size : dev.sizeBytes = sure.sizeBytes
  reads : ∀ off len, Below (dev.readAt off len) (sure.readAt off len)

/-! ## The metadata of a thin pool -/

section Blocks

variable {read other : ReadBlock} (below : ∀ off len, Below (read off len) (other off len))

include below

theorem checkedBlock_below (n : Nat) (xor : UInt32) (what : String) :
    Below (checkedBlock read n xor what) (checkedBlock other n xor what) := by
  unfold checkedBlock
  refine (Below.refl _).bind fun _ _ => ?_
  refine ((below _ _).mapError _ _).bind fun b _ => ?_
  exact .refl _

theorem lookupFrom_below (root key depth place : Nat) :
    Below (lookupFrom read root key depth place) (lookupFrom other root key depth place) := by
  induction depth generalizing place with
  | zero => exact .error _ _
  | succ depth ih =>
      rw [lookupFrom, lookupFrom]
      refine (checkedBlock_below below place _ _).bind fun b _ => ?_
      refine (Below.refl _).bind fun _ _ => ?_
      refine (Below.refl _).bind fun _ _ => ?_
      dsimp only
      cases partitionPoint (fun k => decide (k ≤ key)) (nodeKeys b (field b 16 4)) with
      | zero => exact .refl _
      | succ i => exact .ite (fun _ => ih _) fun _ => .refl _

theorem dataBlock_below (root vb : Nat) :
    Below (dataBlock read root vb) (dataBlock other root vb) := by
  unfold dataBlock
  exact (lookupFrom_below below root vb _ _).bind fun _ _ => .refl _

theorem thinSuperblock_below : Below (thinSuperblock read) (thinSuperblock other) := by
  unfold thinSuperblock
  exact (checkedBlock_below below _ _ _).bind fun b _ => .refl _

end Blocks

/-! ## Reads -/

section Devices

variable {devices sure : List BlockRead} (withheld : List.Forall₂ BlockRead.Withholds devices sure)

include withheld

theorem readDevice_below (dev off len : Nat) :
    Below (readDevice devices dev off len) (readDevice sure dev off len) := by
  have related := Slices.rel_getElem? withheld dev
  unfold readDevice
  generalize devices[dev]? = device at related ⊢
  generalize sure[dev]? = twin at related ⊢
  cases related with
  | none => exact .refl _
  | some own => exact own.reads off len

theorem readStriped_below (stripeSize : Nat) (stripes : List (Nat × Nat)) (within want : Nat) :
    Below (readStriped devices stripeSize stripes within want)
      (readStriped sure stripeSize stripes within want) := by
  unfold readStriped
  exact .ite (fun _ => readDevice_below withheld _ _ _) fun _ => readDevice_below withheld _ _ _

end Devices

section Sub

variable {V : Type} {read other : V → Nat → Nat → Except BlockError (List UInt8)}

/-- All the images a mirror or a row of copies may ask give the same of a run of `extent`
bytes. -/
structure RaidMap.Agrees (read : V → Nat → Nat → Except BlockError (List UInt8))
    (extent : Nat) (raid : RaidMap V) : Prop where
  legs : raid.level = levelRaid1 → ∀ first second, some first ∈ raid.images →
    some second ∈ raid.images → ∀ within len, within + len ≤ extent → ∀ bytes again,
      read first ((raid.dataOffset + within) % 2 ^ 64) len = .ok bytes →
      read second ((raid.dataOffset + within) % 2 ^ 64) len = .ok again → bytes = again
  copies : ∀ geo, raid.raid10 = some geo → ∀ k within len,
    k * raid.chunk + within + len ≤ extent →
    ∀ first ∈ geo.primary raid.images.length k :: (geo.copies raid.images.length k).drop 1,
    ∀ second ∈ geo.primary raid.images.length k :: (geo.copies raid.images.length k).drop 1,
    ∀ bytes again,
      raid.readMember read first.1 (first.2 * raid.chunk + within) len = .ok (some bytes) →
      raid.readMember read second.1 (second.2 * raid.chunk + within) len = .ok (some again) →
        bytes = again

/-- What a mirror answers, one of its images answers. -/
theorem exists_of_readImages {place want : Nat} {images : List (Option V)} {bytes : List UInt8}
    {last : Option BlockError} (answered : readImages read place want images last = .ok bytes) :
    ∃ image, some image ∈ images ∧ read image (place % 2 ^ 64) want = .ok bytes := by
  induction images generalizing last with
  | nil => cases answered
  | cons image images ih =>
      have later : ∀ last, readImages read place want images last = .ok bytes →
          ∃ other, some other ∈ image :: images ∧ read other (place % 2 ^ 64) want = .ok bytes := by
        intro last answered
        obtain ⟨other, listed, own⟩ := ih answered
        exact ⟨other, List.mem_cons_of_mem _ listed, own⟩
      cases image with
      | none => exact later last answered
      | some image =>
          rw [readImages] at answered
          cases own : read image (place % 2 ^ 64) want with
          | ok found =>
              rw [own] at answered
              cases answered
              exact ⟨image, List.mem_cons_self, own⟩
          | error error =>
              rw [own] at answered
              exact later _ answered

/-- A mirror answers as soon as one of its images does. -/
theorem readImages_answers {place want : Nat} {images : List (Option V)}
    (readable : ∃ image, some image ∈ images ∧ ∃ bytes, read image (place % 2 ^ 64) want = .ok bytes)
    (last : Option BlockError) : ∃ bytes, readImages read place want images last = .ok bytes := by
  induction images generalizing last with
  | nil =>
      obtain ⟨image, listed, -⟩ := readable
      cases listed
  | cons image images ih =>
      obtain ⟨other, listed, bytes, answered⟩ := readable
      cases image with
      | none =>
          rw [readImages]
          exact ih ⟨other, List.mem_of_ne_of_mem (by simp) listed, bytes, answered⟩ last
      | some image =>
          rw [readImages]
          cases own : read image (place % 2 ^ 64) want with
          | ok found => exact ⟨found, rfl⟩
          | error error =>
              refine ih ⟨other, ?_, bytes, answered⟩ (some error)
              rcases List.mem_cons.mp listed with same | later
              · cases same
                rw [own] at answered
                cases answered
              · exact later

section Images

variable {raid : RaidMap V} (below : ∀ image, some image ∈ raid.images → ∀ off len,
  Below (read image off len) (other image off len))

include below

theorem RaidMap.readMember_below (slot off len : Nat) :
    Below (raid.readMember read slot off len) (raid.readMember other slot off len) := by
  unfold RaidMap.readMember
  cases found : raid.images.getD slot none with
  | none => exact .refl _
  | some image =>
      rw [List.getD_eq_getElem?_getD] at found
      have listed : some image ∈ raid.images := by
        cases entry : raid.images[slot]? with
        | none =>
            rw [entry] at found
            cases found
        | some held =>
            rw [entry] at found
            exact found ▸ List.mem_of_getElem? entry
      exact (below image listed _ len).bind fun bytes _ => .refl _

/-- A RAID or mirror segment whose copies agree answers what they all would. -/
theorem RaidMap.readPiece_below {extent : Nat} (agrees : raid.Agrees other extent)
    {within want : Nat} (inside : within + want ≤ extent) :
    Below (raid.readPiece read within want) (raid.readPiece other within want) := by
  unfold RaidMap.readPiece
  refine .ite (fun level => ?_) fun _ => ?_
  · intro bytes answered
    obtain ⟨image, listed, own⟩ := exists_of_readImages answered
    have sure := below image listed _ want bytes own
    obtain ⟨again, answers⟩ := readImages_answers ⟨image, listed, bytes, sure⟩ none
    obtain ⟨first, also, found⟩ := exists_of_readImages answers
    rw [answers, agrees.legs level first image also listed _ _ inside _ _ found sure]
  · have member := @readMember_below _ _ _ raid below
    cases copies : raid.raid10 with
    | none => exact readChunk_below member copies _ _ _
    | some geo =>
        unfold readChunk
        have own : raid.striping.raid10 = some geo := copies
        rw [own]
        intro bytes answered
        obtain ⟨place, listed, found⟩ := exists_of_readCopies answered
        have sure := member _ _ _ _ found
        obtain ⟨again, answers⟩ := readCopies_answers ⟨place, listed, bytes, sure⟩ none
        obtain ⟨first, also, other⟩ := exists_of_readCopies answers
        have here := Nat.div_add_mod' within raid.chunk
        have same := agrees.copies geo copies _ _ _ (by omega) first also place listed _ _ other sure
        dsimp only
        rw [answers, same]

end Images

theorem readThin_below {thin : ThinMap V}
    (metadata : ∀ off len, Below (read thin.metadata off len) (other thin.metadata off len))
    (data : ∀ off len, Below (read thin.data off len) (other thin.data off len))
    (within want : Nat) :
    Below (readThin read thin within want) (readThin other thin within want) := by
  unfold readThin
  have mapped := (dataBlock_below metadata thin.root (within / thin.block)).mapError
    LvmError.toBlock LvmError.toBlock
  refine mapped.bind fun found _ => ?_
  cases found with
  | none => exact .refl _
  | some db => exact (Below.refl _).bind fun _ _ => data _ _

end Sub

/-- The copies of a run of `extent` bytes agree, and its sub-volumes are as they should be. -/
def RunMap.Agrees {V : Type} (read : V → Nat → Nat → Except BlockError (List UInt8))
    (agrees : V → Prop) (extent : Nat) : RunMap V → Prop
  | .striped _ _ => True
  | .raid map => map.Agrees read extent ∧ ∀ image, some image ∈ map.images → agrees image
  | .thin map => agrees map.metadata ∧ agrees map.data

def RunsAgree {V : Type} (read : V → Nat → Nat → Except BlockError (List UInt8))
    (agrees : V → Prop) (runs : List (Run V)) : Prop :=
  ∀ run ∈ runs, run.map.Agrees read agrees run.len

/-- The copies of every mirror in a volume agree, and those in its sub-volumes do. -/
def Volume.Agrees (devices : List BlockRead) : (levels : Nat) → Volume levels → Prop
  | 0, volume => nomatch volume
  | levels + 1, runs =>
      RunsAgree (readVolume devices levels) (Volume.Agrees devices levels) runs

section Volumes

variable {devices sure : List BlockRead} (withheld : List.Forall₂ BlockRead.Withholds devices sure)

include withheld

theorem readMap_below {V : Type} {read other : V → Nat → Nat → Except BlockError (List UInt8)}
    {agrees : V → Prop}
    (below : ∀ volume, agrees volume → ∀ off len, Below (read volume off len) (other volume off len))
    {map : RunMap V} {extent : Nat} (own : map.Agrees other agrees extent) {within want : Nat}
    (inside : within + want ≤ extent) :
    Below (readMap read devices map within want) (readMap other sure map within want) := by
  cases map with
  | striped stripeSize stripes => exact readStriped_below withheld stripeSize stripes within want
  | raid raid =>
      exact raid.readPiece_below (fun image listed => below image (own.2 image listed)) own.1 inside
  | thin thin => exact readThin_below (below _ own.1) (below _ own.2) _ _

/-- A volume answers nothing but what it would over devices that do not fail. -/
theorem readVolume_below {levels : Nat} {volume : Volume levels}
    (agrees : volume.Agrees sure levels) (off len : Nat) :
    Below (readVolume devices levels volume off len) (readVolume sure levels volume off len) := by
  induction levels generalizing off len with
  | zero => exact nomatch volume
  | succ levels ih =>
      refine readPieces_below (fun position left => ?_) len off len
      unfold readRunPiece
      dsimp only
      split
      next => exact .refl _
      next run found =>
        have held := List.find?_some found
        rw [decide_eq_true_eq] at held
        have wrapped := Nat.mod_le (run.start + run.len) (2 ^ 64)
        exact readMap_below withheld (fun _ own => ih own)
          (agrees run (List.mem_of_find?_eq_some found)) (by omega)

end Volumes

/-! ## Resolving -/

/-- What answers nothing but what another program does, and stops with no error that is caught,
is followed by it. -/
theorem follows_of_below {ε α : Type} {caught : ε → Prop} {first second : Except ε α}
    (below : Below first second) (never : Never caught first) :
    Follows caught Eq first second := by
  cases first with
  | error failure => exact .of_error rfl (never failure rfl)
  | ok value =>
      rw [below value rfl]
      exact .of_matched (.ok rfl)

section Never

theorem not_isMissing_corrupt (reason : String) : ¬ (LvmError.corrupt reason).IsMissing := by
  rintro ⟨_, same⟩
  cases same

theorem not_isMissing_unsupported (reason : String) : ¬ (LvmError.unsupported reason).IsMissing := by
  rintro ⟨_, same⟩
  cases same

theorem never_missing_block {α : Type} (read : Except BlockError α) :
    Never LvmError.IsMissing (read.mapError LvmError.block) := by
  intro error failed
  cases read with
  | ok value => cases failed
  | error failure =>
      cases failed
      rintro ⟨_, same⟩
      cases same

variable {read : ReadBlock}

theorem never_missing_checkedBlock (n : Nat) (xor : UInt32) (what : String) :
    Never LvmError.IsMissing (checkedBlock read n xor what) := by
  unfold checkedBlock
  refine (never_refuseIf (not_isMissing_corrupt _)).bind fun _ _ => ?_
  refine (never_missing_block _).bind fun b _ => ?_
  exact (never_refuseIf (not_isMissing_corrupt _)).bind fun _ _ => never_ok b

theorem never_missing_lookupFrom (root key depth place : Nat) :
    Never LvmError.IsMissing (lookupFrom read root key depth place) := by
  induction depth generalizing place with
  | zero => exact never_error (not_isMissing_corrupt _)
  | succ depth ih =>
      rw [lookupFrom]
      refine (never_missing_checkedBlock place _ _).bind fun b _ => ?_
      refine (never_refuseIf (not_isMissing_corrupt _)).bind fun _ _ => ?_
      refine (never_refuseIf (not_isMissing_corrupt _)).bind fun _ _ => ?_
      dsimp only
      cases partitionPoint (fun k => decide (k ≤ key)) (nodeKeys b (field b 16 4)) with
      | zero => exact never_ok _
      | succ i =>
          dsimp only
          split
          next => exact ih _
          next =>
            split
            next => exact never_ok _
            next => exact never_error (not_isMissing_corrupt _)

theorem never_missing_thinSuperblock : Never LvmError.IsMissing (thinSuperblock read) := by
  unfold thinSuperblock
  refine (never_missing_checkedBlock _ _ _).bind fun b _ => ?_
  refine (never_refuseIf (not_isMissing_corrupt _)).bind fun _ _ => ?_
  refine (never_refuseIf (not_isMissing_unsupported _)).bind fun _ _ => ?_
  refine (never_refuseIf (not_isMissing_unsupported _)).bind fun _ _ => ?_
  refine (never_refuseIf (not_isMissing_corrupt _)).bind fun _ _ => ?_
  exact (never_refuseIf (not_isMissing_corrupt _)).bind fun _ _ => never_ok _

end Never

namespace Mapper

/-- The mapper over other devices. -/
def withDevices (mapper : Mapper) (devices : List BlockRead) : Mapper := { mapper with devices }

section Sub

variable {V : Type} {sub again : String → Except LvmError (V × Nat)}
  {read other : V → Nat → Nat → Except BlockError (List UInt8)}
  (subs : ∀ name, Follows LvmError.IsMissing Eq (sub name) (again name))

include subs

theorem imageRuns_withheld (names : List String) (gone : Option LvmError) :
    Follows LvmError.IsMissing Eq (imageRuns sub names gone) (imageRuns again names gone) := by
  induction names generalizing gone with
  | nil => exact .of_matched (.refl _)
  | cons name names ih =>
      unfold imageRuns
      rcases subs name with ⟨error, failed, uncaught⟩ | matched
      · rw [failed]
        cases error with
        | missingPv uuid => exact absurd ⟨uuid, rfl⟩ uncaught
        | _ => exact .of_error rfl uncaught
      · generalize sub name = first at matched ⊢
        generalize again name = second at matched ⊢
        cases matched with
        | ok same =>
            cases same
            exact (ih gone).bind fun _ _ same => same ▸ .of_matched (.refl _)
        | error failure =>
            cases failure with
            | missingPv uuid =>
                exact (ih _).bind fun _ _ same => same ▸ .of_matched (.refl _)
            | _ => exact .of_matched (.error _)

theorem mirror_withheld (seg : Segment) :
    Follows LvmError.IsMissing Eq (mirror sub seg) (mirror again seg) := by
  unfold mirror images
  refine Follows.bind (Follows.bindSame _ fun _ => imageRuns_withheld subs seg.images none) ?_
  rintro images _ rfl
  exact .of_matched (.refl _)

variable (reads : ∀ name volume size, again name = .ok (volume, size) → ∀ off len,
  Below (read volume off len) (other volume off len))

include reads

theorem raidSuper_withheld (names : List String) (gone : Option LvmError) :
    Follows LvmError.IsMissing Eq (raidSuper sub read names gone)
      (raidSuper again other names gone) := by
  induction names generalizing gone with
  | nil => exact .of_matched (.refl _)
  | cons name names ih =>
      unfold raidSuper
      have own := reads name
      rcases subs name with ⟨error, failed, uncaught⟩ | matched
      · rw [failed]
        cases error with
        | missingPv uuid => exact absurd ⟨uuid, rfl⟩ uncaught
        | _ => exact .of_error rfl uncaught
      · generalize sub name = first at matched ⊢
        generalize again name = second at matched own ⊢
        cases matched with
        | @ok first second same =>
            cases same
            obtain ⟨volume, size⟩ := first
            dsimp only
            have recorded := follows_of_below ((own volume size rfl 0 dmRaidSize).mapError
              LvmError.block LvmError.block) (never_missing_block _)
            exact recorded.bind fun b _ same => same ▸ .of_matched (.refl _)
        | error failure =>
            cases failure with
            | missingPv uuid => exact ih _
            | _ => exact .of_matched (.error _)

theorem raid_withheld (seg : Segment) (name : String) :
    Follows LvmError.IsMissing Eq (raid sub read name seg) (raid again other name seg) := by
  unfold raid images
  refine Follows.bindSame _ fun _ => ?_
  refine Follows.bind (Follows.bindSame _ fun _ => imageRuns_withheld subs seg.images none) ?_
  rintro images _ rfl
  refine (raidSuper_withheld subs reads seg.metadata none).bind ?_
  rintro sb _ rfl
  exact .of_matched (.refl _)

theorem thin_withheld (mapper : Mapper) (seg : Segment) (name : String) :
    Follows LvmError.IsMissing Eq (thin sub read mapper name seg)
      (thin again other mapper name seg) := by
  unfold thin
  refine Follows.bindSame _ fun _ => ?_
  refine Follows.bindSame _ fun _ => ?_
  split
  next pool dev _ _ =>
    refine Follows.bindSame _ fun parts => ?_
    obtain ⟨tdata, tmeta⟩ := parts
    dsimp only
    have metadataReads := reads tmeta
    rcases subs tmeta with ⟨error, failed, uncaught⟩ | matched
    · rw [failed]
      exact .of_error rfl uncaught
    · generalize sub tmeta = first at matched ⊢
      generalize again tmeta = second at matched metadataReads ⊢
      cases matched with
      | error failure => exact .of_matched (.error _)
      | @ok first second same =>
          cases same
          obtain ⟨metadata, size⟩ := first
          have below := metadataReads metadata size rfl
          refine (subs tdata).bind ?_
          rintro ⟨data, _⟩ _ rfl
          dsimp only
          have checked := follows_of_below (thinSuperblock_below below) never_missing_thinSuperblock
          refine checked.bind ?_
          rintro sb _ rfl
          have rooted : Follows LvmError.IsMissing Eq (deviceRoot (read metadata) sb dev)
              (deviceRoot (other metadata) sb dev) :=
            follows_of_below (lookupFrom_below below _ dev _ _) (never_missing_lookupFrom _ _ _ _)
          refine rooted.bind ?_
          rintro found _ rfl
          exact .of_matched (.refl _)
  next => exact .of_matched (.error _)

end Sub

section Over

variable {mapper : Mapper} {sure : List BlockRead}
  (withheld : List.Forall₂ BlockRead.Withholds mapper.devices sure)

include withheld

/-- Stripes are found by the sizes of the devices, which are the same. -/
theorem striped_withDevices {V : Type} (name : String) (seg : Segment) :
    mapper.striped (V := V) name seg = (mapper.withDevices sure).striped name seg := by
  have starts : mapper.stripeStart name (seg.extentCount / seg.stripes.length) =
      (mapper.withDevices sure).stripeStart name (seg.extentCount / seg.stripes.length) := by
    funext st
    have sizes : ∀ dev : Nat,
        (mapper.devices[dev]?.map fun device : BlockRead => device.sizeBytes.toNat) =
          sure[dev]?.map fun device : BlockRead => device.sizeBytes.toNat := by
      intro dev
      have related := Slices.rel_getElem? withheld dev
      generalize mapper.devices[dev]? = device at related ⊢
      generalize sure[dev]? = twin at related ⊢
      cases related with
      | none => rfl
      | some own => rw [Option.map_some, Option.map_some, own.size]
    unfold stripeStart
    simp only [sizes]
    rfl
  unfold striped
  dsimp only
  rw [starts]
  rfl

variable {V : Type} {sub again : String → Except LvmError (V × Nat)}
  {read other : V → Nat → Nat → Except BlockError (List UInt8)}
  (subs : ∀ name, Follows LvmError.IsMissing Eq (sub name) (again name))
  (reads : ∀ name volume size, again name = .ok (volume, size) → ∀ off len,
    Below (read volume off len) (other volume off len))

include subs reads

theorem mapSegment_withheld (name : String) (seg : Segment) :
    Follows LvmError.IsMissing Eq (mapSegment sub read mapper name seg)
      (mapSegment again other (mapper.withDevices sure) name seg) := by
  unfold mapSegment
  refine Follows.ite (fun _ => ?_) fun _ => ?_
  · rw [striped_withDevices withheld]
    exact .of_matched (.refl _)
  refine Follows.ite (fun _ => thin_withheld subs reads mapper seg name) fun _ => ?_
  refine Follows.ite (fun _ => .of_matched (.error _)) fun _ => ?_
  refine Follows.ite (fun _ => mirror_withheld subs seg) fun _ => ?_
  exact Follows.ite (fun _ => raid_withheld subs reads seg name) fun _ => .of_matched (.error _)

theorem mapSegments_withheld (name : String) (segs : List Segment) (next : Nat) :
    Follows LvmError.IsMissing Eq (mapSegments sub read mapper name segs next)
      (mapSegments again other (mapper.withDevices sure) name segs next) := by
  induction segs generalizing next with
  | nil => exact .of_matched (.refl _)
  | cons seg segs ih =>
      unfold mapSegments
      refine Follows.bindSame _ fun _ => ?_
      refine Follows.bindSame _ fun _ => ?_
      refine (mapSegment_withheld withheld subs reads name seg).bind ?_
      rintro map _ rfl
      exact (ih _).bind fun _ _ same => same ▸ .of_matched (.refl _)

end Over

/-- The mirrors of every volume of the group agree. -/
def MirrorsAgree (mapper : Mapper) : Prop :=
  ∀ levels name volume size, mapper.map levels name = .ok (volume, size) →
    Volume.Agrees mapper.devices levels volume

/-- Over devices that fail, a volume is resolved as over the ones that do not, or not at all. -/
theorem map_withheld {mapper : Mapper} {sure : List BlockRead}
    (withheld : List.Forall₂ BlockRead.Withholds mapper.devices sure)
    (agree : (mapper.withDevices sure).MirrorsAgree) (levels : Nat) (name : String) :
    Follows LvmError.IsMissing Eq (mapper.map levels name)
      ((mapper.withDevices sure).map levels name) := by
  induction levels generalizing name with
  | zero => exact .of_matched (.refl _)
  | succ levels ih =>
      unfold map
      refine Follows.bindSame _ fun info => ?_
      have reads : ∀ name volume size, (mapper.withDevices sure).map levels name = .ok (volume, size) →
          ∀ off len, Below (readVolume mapper.devices levels volume off len)
            (readVolume sure levels volume off len) :=
        fun name volume size mapped => readVolume_below withheld (agree levels name volume size mapped)
      refine (mapSegments_withheld withheld ih reads name info.segments 0).bind ?_
      rintro ⟨runs, last⟩ _ rfl
      exact .of_matched (.refl _)

end Mapper

/-! ## Opening -/

theorem requireLabel_below {dev sure : BlockRead} (withheld : dev.Withholds sure) (device : Nat) :
    Below (requireLabel dev device) (requireLabel sure device) := by
  have scanned : ∀ sectors, Below (scanLabel dev device sectors) (scanLabel sure device sectors) := by
    intro sectors
    induction sectors with
    | nil => exact .refl _
    | cons sector rest ih =>
        rw [scanLabel, scanLabel, withheld.size]
        refine .ite (fun _ => .refl _) fun _ => ?_
        refine ((withheld.reads _ _).mapError _ _).bind fun s _ => ?_
        exact .ite (fun _ => ih) fun _ => .refl _
  exact (scanned _).bind fun _ _ => .refl _

theorem forall₂_zipIdx {α β : Type} {R : α → β → Prop} {first : List α} {second : List β}
    (matched : List.Forall₂ R first second) (start : Nat) :
    List.Forall₂ (fun item other => R item.1 other.1 ∧ item.2 = other.2) (first.zipIdx start)
      (second.zipIdx start) := by
  induction matched generalizing start with
  | nil => exact .nil
  | cons head _ ih => exact .cons ⟨head, rfl⟩ (ih (start + 1))

theorem readUuids_below {devices sure : List BlockRead}
    (withheld : List.Forall₂ BlockRead.Withholds devices sure) :
    Below (readUuids devices) (readUuids sure) := by
  refine .foldlM ((forall₂_zipIdx withheld 0).imp ?_) []
  rintro ⟨dev, place⟩ ⟨twin, _⟩ ⟨own, rfl⟩ known
  exact (requireLabel_below own place).bind fun _ _ => .refl _

/-- A volume that opens over devices that fail some reads, but not those of the newest metadata,
is the one that opens when they fail none, and what it answers is what that one answers. -/
theorem openVolume_withheld {devices sure : List BlockRead} {mapper : Mapper}
    (withheld : List.Forall₂ BlockRead.Withholds devices sure)
    (found : Mapper.ofDevices sure = .ok mapper) (agree : mapper.MirrorsAgree)
    (newest : readVolumeGroup devices = .ok mapper.vg) {name : String} {volume : LogicalVolume}
    (opened : LogicalVolume.openVolume devices name = .ok volume) :
    ∃ other, LogicalVolume.openVolume sure name = .ok other ∧ other.info = volume.info ∧
      other.size = volume.size ∧
      ∀ offset len bytes, volume.readAt offset len = .ok bytes →
        other.readAt offset len = .ok bytes := by
  obtain ⟨sameDevices, own, ofDevices, given, named, mapped⟩ :=
    LogicalVolume.openVolume_eq_ok opened
  unfold Mapper.ofDevices at ofDevices
  rw [newest, ok_bind] at ofDevices
  obtain ⟨uuids, labels, ofDevices⟩ := bind_eq_ok.mp ofDevices
  cases ofDevices
  have twin : mapper = Mapper.withDevices ⟨mapper.vg, uuids, devices⟩ sure := by
    unfold Mapper.ofDevices at found
    obtain ⟨vg, -, found⟩ := bind_eq_ok.mp found
    obtain ⟨known, again, found⟩ := bind_eq_ok.mp found
    rw [readUuids_below withheld uuids labels] at again
    cases again
    cases found
    rfl
  rw [twin] at agree
  have follows := Mapper.map_withheld withheld agree 3 name
  obtain ⟨_, resolved, rfl⟩ := follows.exists_of_ok mapped
  rw [← twin] at resolved
  refine ⟨_, openVolume_of_map found (twin ▸ named) resolved, rfl, rfl, ?_⟩
  intro offset len bytes answered
  have agrees := agree 3 name volume.runs volume.size (twin ▸ resolved)
  unfold LogicalVolume.readAt at answered ⊢
  rw [sameDevices] at answered
  split at answered
  next => cases answered
  next inside =>
    rw [if_neg inside]
    exact readVolume_below withheld agrees offset len bytes answered

theorem readArea_below {dev sure : BlockRead} (withheld : dev.Withholds sure)
    (start size device : Nat) :
    Below (readArea dev start size device) (readArea sure start size device) := by
  have reads : ∀ off len, Below (dev.readLvm off len) (sure.readLvm off len) :=
    fun off len => (withheld.reads off len).mapError _ _
  unfold readArea readRing
  rw [withheld.size]
  refine (Below.refl _).bind fun _ _ => ?_
  refine (reads _ _).bind fun h _ => ?_
  refine (Below.refl _).bind fun _ _ => ?_
  refine (Below.refl _).bind fun _ _ => ?_
  refine .ite (fun _ => .refl _) fun _ => ?_
  refine (Below.refl _).bind fun _ _ => ?_
  refine Below.bind ?_ fun text _ => .refl _
  refine (reads _ _).bind fun head _ => ?_
  refine .ite (fun _ => ?_) fun _ => .refl _
  exact (Below.refl _).bind fun _ _ => (reads _ _).bind fun tail _ => .refl _

theorem BlockRead.confined_withholds {dev : BlockRead} {start finish first last : Nat}
    (after : first ≤ start) (before : finish ≤ last) (refusal : BlockError) :
    (dev.confined start finish refusal).Withholds (dev.confined first last refusal) where
  size := rfl
  reads off len := by
    unfold confined
    dsimp only
    split
    next inside =>
      rw [if_pos ⟨Nat.le_trans after inside.1, Nat.le_trans inside.2 before⟩]
      exact .refl _
    next => exact .error _ _

theorem BlockRead.confined_withholds_self (dev : BlockRead) (start finish : Nat)
    (refusal : BlockError) : (dev.confined start finish refusal).Withholds dev where
  size := rfl
  reads off len := by
    unfold confined
    dsimp only
    split
    next => exact .refl _
    next => exact .error _ _

namespace Mapper

/-- In a group of nothing but stripes there is nothing to agree. -/
theorem mirrorsAgree_of_striped {mapper : Mapper}
    (striped : ∀ info ∈ mapper.vg.logicalVolumes, ∀ seg ∈ info.segments, seg.kind = "striped") :
    mapper.MirrorsAgree := by
  intro levels name volume size mapped
  cases levels with
  | zero => exact nomatch volume
  | succ levels =>
      obtain ⟨info, last, found, resolved, -⟩ := map_eq_ok mapped
      have listed : info ∈ mapper.vg.logicalVolumes :=
        List.mem_of_find?_eq_some (orRefuse_eq_ok.mp found)
      have kinds := striped info listed
      clear mapped found
      generalize info.segments = segs at resolved kinds
      generalize 0 = next at resolved
      induction segs generalizing next volume with
      | nil =>
          cases resolved
          intro run listed
          cases listed
      | cons seg segs ih =>
          obtain ⟨-, run, others, rfl, -, own, later⟩ := mapSegments_cons resolved
          have tail := ih others (fun seg listed => kinds seg (List.mem_cons_of_mem _ listed)) _ later
          intro each listed
          rcases List.mem_cons.mp listed with rfl | listed
          · have map := own.map
            rw [mapSegment, if_pos (kinds seg List.mem_cons_self)] at map
            obtain ⟨stripes, same, -⟩ := striped_eq_ok map
            rw [same]
            trivial
          · exact tail each listed

end Mapper

/-! ## A device whose last sectors are bad -/

namespace WrittenPv

section Worn

variable (pv : WrittenPv) {sound : Nat} (front : 2048 ≤ sound) (refusal : BlockError)

/-- The device when only the bytes before `sound` can be read. -/
def worn (pv : WrittenPv) (sound : Nat) (refusal : BlockError) : BlockRead :=
  pv.device.toBlockRead.confined 0 sound refusal

include front

theorem requireLabel_worn (device : Nat) :
    requireLabel (pv.worn sound refusal) device = .ok pv.label := by
  have size : (pv.worn sound refusal).sizeBytes.toNat = 2048 + pv.data.length := pv.size_device
  have sector : (pv.worn sound refusal).readLvm 0 lvmSector = .ok pv.labelSector := by
    have whole : slice pv.bytes 0 lvmSector = pv.labelSector := pv.slice_label
    unfold worn
    rw [readLvm_confined (Nat.zero_le 0) (by simp only [lvmSector]; omega),
      pv.readLvm_device (by simp only [lvmSector]; omega), whole]
  have name : slice pv.labelSector 0 8 = labelId := rfl
  have number : field pv.labelSector 8 8 = 0 := field_of_slice rfl (by decide)
  unfold requireLabel readPvLabelOf
  rw [show List.range labelScanSectors = [0, 1, 2, 3] from rfl, scanLabel, size,
    if_neg (by simp only [lvmSector]; omega), Nat.zero_mul, sector, ok_bind,
    if_neg (by simp [name, number]), parseLabel_labelSector]
  rfl

theorem readArea_worn (device : Nat) : readArea (pv.worn sound refusal) 512 1536 device =
    .ok (some (Utf8.fromUtf8Lossy pv.text)) := by
  have inside : (pv.device.toBlockRead.confined 512 (512 + 1536) refusal).Withholds
      (pv.worn sound refusal) :=
    BlockRead.confined_withholds (by decide) front refusal
  refine readArea_below inside 512 1536 device _ ?_
  rw [readArea_confined]
  exact pv.readArea_device device

/-- The group is still found. -/
theorem ofDevices_worn {vg : VolumeGroup}
    (parsed : (parseMetadata (Utf8.fromUtf8Lossy pv.text) >>= VolumeGroup.fromMetadata) = .ok vg) :
    readVolumeGroup [pv.worn sound refusal] = .ok vg ∧
      Mapper.ofDevices [pv.worn sound refusal] =
        .ok { vg, uuidToDev := [(pv.label.uuid, 0)], devices := [pv.worn sound refusal] } := by
  have one : NewestText.addArea (pv.worn sound refusal) 0 ⟨none, none⟩ (512, 1536) =
      ⟨some (vg.seqno, Utf8.fromUtf8Lossy pv.text), none⟩ := by
    unfold NewestText.addArea
    rw [readArea_worn pv front]
    simp only [parsed]
    rfl
  have text : readMetadataTextOf (pv.worn sound refusal) pv.label 0 =
      .ok (some (Utf8.fromUtf8Lossy pv.text)) := by
    unfold readMetadataTextOf
    simp only [label, List.foldl_cons, List.foldl_nil, one]
  have newer : newerGroup none (pv.worn sound refusal, 0) = .ok (some vg) := by
    obtain ⟨top, found, group⟩ := bind_eq_ok.mp parsed
    unfold newerGroup
    rw [requireLabel_worn pv front, ok_bind, text, ok_bind]
    simp only [found, ok_bind, group]
    rfl
  have best : readVolumeGroup [pv.worn sound refusal] = .ok vg := by
    unfold readVolumeGroup
    simp only [List.zipIdx_cons, List.zipIdx_nil, List.foldlM_cons, List.foldlM_nil, newer,
      ok_bind, pure_eq_ok, orRefuse]
  have uuids : readUuids [pv.worn sound refusal] = .ok [(pv.label.uuid, 0)] := by
    unfold readUuids
    simp only [List.zipIdx_cons, List.zipIdx_nil, List.foldlM_cons, List.foldlM_nil,
      requireLabel_worn pv front, ok_bind, pure_eq_ok]
  exact ⟨best, by rw [Mapper.ofDevices, best, ok_bind, uuids, ok_bind]⟩

end Worn

end WrittenPv

def badSector : BlockError := .custom "bad sector"

/-- The two segments when the last extents cannot be read. -/
def wornDevice : BlockRead := twoSegments.worn 4096 badSector

def wornMapper : Mapper := twoSegmentsMapper.withDevices [wornDevice]

/-- An extent past the bad sectors fails on the worn device, and one before them reads as it
does on the sound one. -/
theorem openVolume_worn :
    ∃ volume other, LogicalVolume.openVolume [wornDevice] "lv" = .ok volume ∧
      LogicalVolume.openVolume [twoSegments.device.toBlockRead] "lv" = .ok other ∧
      other.size = volume.size ∧ (volume.readAt 0 512).isOk = false ∧
      ∃ bytes, volume.readAt 512 512 = .ok bytes ∧ other.readAt 512 512 = .ok bytes := by
  have parsed : (parseMetadata (Utf8.fromUtf8Lossy twoSegments.text) >>=
      VolumeGroup.fromMetadata) = .ok twoSegmentsMapper.vg := by
    rw [parseMetadata_ascii (by decide +kernel)]
    decide +kernel
  obtain ⟨newest, found⟩ := twoSegments.ofDevices_worn (show 2048 ≤ 4096 by decide) badSector parsed
  have mapped : (wornMapper.map 3 "lv").toOption.any (fun resolved =>
      decide (1024 ≤ resolved.2) && (readVolume [wornDevice] 3 resolved.1 512 512).isOk &&
        !(readVolume [wornDevice] 3 resolved.1 0 512).isOk) = true := by
    decide +kernel
  obtain ⟨info, resolved, opened, reads⟩ := exists_openVolume found
    (show (wornMapper.lv "lv").isOk = true by decide +kernel) mapped
  have withheld : List.Forall₂ BlockRead.Withholds [wornDevice] [twoSegments.device.toBlockRead] :=
    .cons (BlockRead.confined_withholds_self _ _ _ _) .nil
  have agree : twoSegmentsMapper.MirrorsAgree := Mapper.mirrorsAgree_of_striped (by decide)
  obtain ⟨other, sound, -, size, same⟩ :=
    openVolume_withheld withheld ofDevices_twoSegments agree newest opened
  simp only [Bool.and_eq_true, decide_eq_true_eq, Bool.not_eq_true'] at reads
  obtain ⟨⟨long, readable⟩, bad⟩ := reads
  refine ⟨_, other, opened, sound, size, ?_, ?_⟩
  · unfold LogicalVolume.readAt
    dsimp only
    rw [if_neg (by omega)]
    exact bad
  · have answers : (readVolume [wornDevice] 3 resolved.1 512 512).isOk = true := readable
    cases read : readVolume [wornDevice] 3 resolved.1 512 512 with
    | error failure =>
        rw [read] at answers
        cases answers
    | ok bytes =>
        have own : LogicalVolume.readAt ⟨[wornDevice], resolved.1, resolved.2, info⟩ 512 512 =
            .ok bytes := by
          unfold LogicalVolume.readAt
          dsimp only
          rw [if_neg (by omega)]
          exact read
        exact ⟨bytes, own, same 512 512 bytes own⟩

end DiskPartitions
