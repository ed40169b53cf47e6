import DiskPartitions.AlikePrograms
import DiskPartitions.LvmLabels

/-!
# Physical volumes given at another place

The place a device is given at only names it in an error: its label and its metadata are
the same at every place, and so is whether they can be read.
-/

namespace DiskPartitions

open Refusals

theorem alike_parseLabel (s : List UInt8) (sector here there : Nat) :
    Alike (parseLabel s sector here) (parseLabel s sector there) := by
  unfold parseLabel
  exact (Alike.refuseIf _ _ _).bind fun _ => .refl _

theorem alike_scanLabel (dev : BlockRead) (here there : Nat) (sectors : List Nat) :
    Alike (scanLabel dev here sectors) (scanLabel dev there sectors) := by
  induction sectors with
  | nil => exact .refl _
  | cons sector rest ih =>
      refine Alike.ite (fun _ => .refl _) fun _ => ?_
      refine (Alike.refl _).bind fun s => ?_
      refine Alike.ite (fun _ => ih) fun _ => ?_
      exact (alike_parseLabel s sector here there).bind fun _ => .refl _

theorem alike_readPvLabelOf (dev : BlockRead) (here there : Nat) :
    Alike (readPvLabelOf dev here) (readPvLabelOf dev there) :=
  alike_scanLabel dev here there _

theorem alike_readArea (dev : BlockRead) (start size here there : Nat) :
    Alike (readArea dev start size here) (readArea dev start size there) := by
  unfold readArea
  refine (Alike.refl _).bind fun _ => ?_
  refine (Alike.refl _).bind fun h => ?_
  refine (Alike.refuseIf _ _ _).bind fun _ => ?_
  refine (Alike.refl _).bind fun _ => ?_
  refine Alike.ite (fun _ => .refl _) fun _ => ?_
  refine (Alike.refl _).bind fun _ => ?_
  refine (Alike.refl _).bind fun text => ?_
  exact (Alike.refuseIf _ _ _).bind fun _ => .refl _

/-- Two passes over the areas have found the same text, and both or neither an error. -/
def NewestText.AlikeTo (first second : NewestText) : Prop :=
  first.newest = second.newest ∧ first.firstError.isSome = second.firstError.isSome

theorem NewestText.AlikeTo.addArea {dev : BlockRead} {first second : NewestText}
    (alike : first.AlikeTo second) (here there : Nat) (area : Nat × Nat) :
    (NewestText.addArea dev here first area).AlikeTo (NewestText.addArea dev there second area) := by
  obtain ⟨newest, failed⟩ := alike
  unfold NewestText.addArea
  rcases (alike_readArea dev area.1 area.2 here there).cases with ⟨found, left, right⟩ |
    ⟨_, _, left, right⟩
  · rw [left, right]
    cases found with
    | none => exact ⟨newest, failed⟩
    | some text =>
        dsimp only
        split
        next => exact ⟨newest, by simp⟩
        next vg _ =>
          rw [newest]
          split
          next => exact ⟨rfl, failed⟩
          next => exact ⟨newest, failed⟩
  · rw [left, right]
    exact ⟨newest, by simp⟩

theorem NewestText.AlikeTo.foldl {dev : BlockRead} (here there : Nat) (areas : List (Nat × Nat))
    {first second : NewestText} (alike : first.AlikeTo second) :
    (areas.foldl (NewestText.addArea dev here) first).AlikeTo
      (areas.foldl (NewestText.addArea dev there) second) := by
  induction areas generalizing first second with
  | nil => exact alike
  | cons area areas ih => exact ih (alike.addArea here there area)

theorem alike_readMetadataTextOf (dev : BlockRead) (label : PvLabel) (here there : Nat) :
    Alike (readMetadataTextOf dev label here) (readMetadataTextOf dev label there) := by
  have start : NewestText.AlikeTo ⟨none, none⟩ ⟨none, none⟩ := ⟨rfl, rfl⟩
  have alike := @NewestText.AlikeTo.foldl dev here there label.metadataAreas _ _ start
  unfold readMetadataTextOf
  revert alike
  generalize label.metadataAreas.foldl (NewestText.addArea dev here) ⟨none, none⟩ = first
  generalize label.metadataAreas.foldl (NewestText.addArea dev there) ⟨none, none⟩ = second
  obtain ⟨text, failed⟩ := first
  obtain ⟨_, otherFailed⟩ := second
  rintro ⟨rfl, same⟩
  cases text with
  | some text => rfl
  | none =>
      cases failed with
      | none =>
          cases otherFailed with
          | none => rfl
          | some error => cases same
      | some error =>
          cases otherFailed with
          | none => cases same
          | some other => rfl

end DiskPartitions
