import DiskPartitions.ResolvedVolumes

/-!
# Volumes resolved with more levels to go

The depth a volume is resolved at matters to one refusal only, that of sub-volumes nested too
deep, and no part of the resolution goes on after it.  So a volume that is resolved with some
levels to go is resolved to the same runs with more of them: a hidden sub-volume opens by its
own name, and reads as it does inside the volume it is part of.
-/

namespace DiskPartitions

open Refusals BufferedReads

/-- The error an image or a metadata sub-volume is left out for. -/
def LvmError.IsMissing (error : LvmError) : Prop := ∃ uuid, error = .missingPv uuid

namespace Mapper

section Sub

variable {V W : Type} {sub : String → Except LvmError (V × Nat)}
  {again : String → Except LvmError (W × Nat)}
  {read : V → Nat → Nat → Except BlockError (List UInt8)}
  {other : W → Nat → Nat → Except BlockError (List UInt8)}
  (subs : ∀ name, Follows LvmError.IsMissing (SameSub read other) (sub name) (again name))

include subs

theorem imageRuns_follows (names : List String) (gone : Option LvmError) :
    Follows LvmError.IsMissing
      (fun first second => SameImages read other first.1 second.1 ∧ first.2 = second.2)
      (imageRuns sub names gone) (imageRuns again names gone) := by
  induction names generalizing gone with
  | nil => exact .of_matched (.ok ⟨.nil, rfl⟩)
  | cons name names ih =>
      unfold imageRuns
      rcases subs name with ⟨error, failed, uncaught⟩ | matched
      · rw [failed]
        cases error with
        | missingPv uuid => exact absurd ⟨uuid, rfl⟩ uncaught
        | _ => exact .of_error rfl uncaught
      · generalize sub name = first at matched ⊢
        generalize again name = second at matched ⊢
        cases matched with
        | ok same =>
            refine (ih gone).bind ?_
            rintro ⟨images, missing⟩ ⟨twins, _⟩ ⟨rest, rfl⟩
            exact .of_matched (.ok ⟨.cons (.some same.1) rest, rfl⟩)
        | error failure =>
            cases failure with
            | missingPv uuid =>
                refine (ih _).bind ?_
                rintro ⟨images, missing⟩ ⟨twins, _⟩ ⟨rest, rfl⟩
                exact .of_matched (.ok ⟨.cons .none rest, rfl⟩)
            | _ => exact .of_matched (.error _)

theorem raidSuper_follows (names : List String) (gone : Option LvmError) :
    Follows LvmError.IsMissing Eq (raidSuper sub read names gone)
      (raidSuper again other names gone) := by
  induction names generalizing gone with
  | nil => exact .of_matched (.refl _)
  | cons name names ih =>
      unfold raidSuper
      rcases subs name with ⟨error, failed, uncaught⟩ | matched
      · rw [failed]
        cases error with
        | missingPv uuid => exact absurd ⟨uuid, rfl⟩ uncaught
        | _ => exact .of_error rfl uncaught
      · generalize sub name = first at matched ⊢
        generalize again name = second at matched ⊢
        cases matched with
        | ok same =>
            obtain ⟨reads, _⟩ := same
            unfold SameReads at reads
            dsimp only
            rw [reads]
            exact .of_matched (.refl _)
        | error failure =>
            cases failure with
            | missingPv uuid => exact ih _
            | _ => exact .of_matched (.error _)

theorem images_follows (seg : Segment) :
    Follows LvmError.IsMissing
      (fun first second => SameImages read other first.1 second.1 ∧ first.2 = second.2)
      (images sub seg) (images again seg) :=
  Follows.bindSame _ fun _ => imageRuns_follows subs seg.images none

theorem raid_follows (seg : Segment) (name : String) (devices : List BlockRead) :
    Follows LvmError.IsMissing (SameMap read other devices devices) (raid sub read name seg)
      (raid again other name seg) := by
  unfold raid
  refine Follows.bindSame _ fun _ => ?_
  refine (images_follows subs seg).bind ?_
  rintro ⟨images, gone⟩ ⟨twins, _⟩ ⟨same, rfl⟩
  have length := SameImages.length_eq same
  refine (raidSuper_follows subs seg.metadata none).bind ?_
  rintro sb _ rfl
  dsimp only
  rw [← length]
  refine Follows.bindSame _ fun level => ?_
  refine Follows.bindSame _ fun raid10 => ?_
  refine Follows.bindSame _ fun _ => ?_
  unfold requireSurvives
  rw [SameImages.survives_eq same]
  refine Follows.bindSame _ fun _ => ?_
  exact .of_matched (.ok (SameImages.raid same rfl))

theorem mirror_follows (seg : Segment) (devices : List BlockRead) :
    Follows LvmError.IsMissing (SameMap read other devices devices) (mirror sub seg)
      (mirror again seg) := by
  unfold mirror
  refine (images_follows subs seg).bind ?_
  rintro ⟨images, gone⟩ ⟨twins, _⟩ ⟨same, rfl⟩
  dsimp only
  unfold requireSurvives
  rw [SameImages.survives_eq same]
  refine Follows.bindSame _ fun _ => ?_
  exact .of_matched (.ok (SameImages.raid same rfl))

theorem thin_follows (mapper : Mapper) (seg : Segment) (name : String)
    (devices : List BlockRead) :
    Follows LvmError.IsMissing (SameMap read other devices devices)
      (thin sub read mapper name seg) (thin again other mapper name seg) := by
  unfold thin
  refine Follows.bindSame _ fun _ => ?_
  refine Follows.bindSame _ fun _ => ?_
  split
  next pool dev _ _ =>
    refine Follows.bindSame _ fun parts => ?_
    obtain ⟨tdata, tmeta⟩ := parts
    dsimp only
    refine (subs tmeta).bind ?_
    rintro ⟨metadata, _⟩ ⟨twinMetadata, _⟩ ⟨sameMetadata, _⟩
    refine (subs tdata).bind ?_
    rintro ⟨data, _⟩ ⟨twinData, _⟩ ⟨sameData, _⟩
    dsimp only at sameMetadata sameData ⊢
    have reads := sameMetadata
    unfold SameReads at reads
    rw [reads]
    refine Follows.bindSame _ fun sb => ?_
    refine Follows.bindSame _ fun found => ?_
    refine Follows.bindSame _ fun root => ?_
    exact .of_matched (.ok (sameMap_thin sameMetadata sameData _ _))
  next => exact .of_matched (.error _)

theorem mapSegment_follows (mapper : Mapper) (seg : Segment) (name : String) :
    Follows LvmError.IsMissing (SameMap read other mapper.devices mapper.devices)
      (mapSegment sub read mapper name seg) (mapSegment again other mapper name seg) := by
  unfold mapSegment
  refine Follows.ite (fun _ => ?_) fun _ => ?_
  · unfold striped
    refine Follows.bindSame _ fun _ => ?_
    refine Follows.bindSame _ fun stripes => ?_
    refine Follows.bindSame _ fun _ => ?_
    exact .of_matched (.ok rfl)
  refine Follows.ite (fun _ => thin_follows subs mapper seg name _) fun _ => ?_
  refine Follows.ite (fun _ => .of_matched (.error _)) fun _ => ?_
  refine Follows.ite (fun _ => mirror_follows subs seg _) fun _ => ?_
  exact Follows.ite (fun _ => raid_follows subs seg name _) fun _ => .of_matched (.error _)

theorem mapSegments_follows (mapper : Mapper) (segs : List Segment) (name : String) (next : Nat) :
    Follows LvmError.IsMissing
      (fun first second => List.Forall₂ (SameRun read other mapper.devices mapper.devices)
        first.1 second.1 ∧ first.2 = second.2)
      (mapSegments sub read mapper name segs next)
      (mapSegments again other mapper name segs next) := by
  induction segs generalizing next with
  | nil => exact .of_matched (.ok ⟨.nil, rfl⟩)
  | cons seg segs ih =>
      unfold mapSegments
      refine Follows.bindSame _ fun _ => ?_
      refine Follows.bindSame _ fun _ => ?_
      refine (mapSegment_follows subs mapper seg name).bind fun map twinMap sameMap => ?_
      refine (ih _).bind ?_
      rintro ⟨runs, last⟩ ⟨twinRuns, _⟩ ⟨rest, rfl⟩
      exact .of_matched (.ok ⟨.cons ⟨rfl, rfl, sameMap⟩ rest, rfl⟩)

end Sub

/-- With one more level to go a volume is resolved to runs that read the same. -/
theorem map_follows (mapper : Mapper) (levels : Nat) (name : String) :
    Follows LvmError.IsMissing
      (SameSub (readVolume mapper.devices levels) (readVolume mapper.devices (levels + 1)))
      (mapper.map levels name) (mapper.map (levels + 1) name) := by
  induction levels generalizing name with
  | zero =>
      refine .of_error rfl ?_
      rintro ⟨_, same⟩
      cases same
  | succ levels ih =>
      unfold map
      refine Follows.bindSame _ fun info => ?_
      refine (mapSegments_follows ih mapper info.segments name 0).bind ?_
      rintro ⟨runs, next⟩ ⟨twinRuns, _⟩ ⟨sameRuns, rfl⟩
      exact .of_matched (.ok ⟨readRuns_congr sameRuns, rfl⟩)

/-- A volume that is resolved with some levels to go is resolved with more of them. -/
theorem map_deeper {mapper : Mapper} {levels more : Nat} (deeper : levels ≤ more) {name : String}
    {volume : Volume levels} {size : Nat} (mapped : mapper.map levels name = .ok (volume, size)) :
    ∃ twin, mapper.map more name = .ok (twin, size) := by
  induction more, deeper using Nat.le_induction with
  | base => exact ⟨volume, mapped⟩
  | succ more _ ih =>
      obtain ⟨twin, mapped⟩ := ih
      obtain ⟨⟨own, _⟩, again, -, rfl⟩ := (mapper.map_follows more name).exists_of_ok mapped
      exact ⟨own, again⟩

/-- The superblock of a RAID segment is the same, whatever the levels to go. -/
theorem raidSuper_deeper {mapper : Mapper} {levels more : Nat} (deeper : levels ≤ more)
    {names : List String} {gone : Option LvmError} {sb : DmRaidSuper}
    (recorded : raidSuper (mapper.map levels) (readVolume mapper.devices levels) names gone =
      .ok sb) :
    raidSuper (mapper.map more) (readVolume mapper.devices more) names gone = .ok sb := by
  induction more, deeper using Nat.le_induction with
  | base => exact recorded
  | succ more _ ih =>
      obtain ⟨_, again, rfl⟩ :=
        (raidSuper_follows (mapper.map_follows more) names gone).exists_of_ok ih
      exact again

end Mapper

end DiskPartitions
