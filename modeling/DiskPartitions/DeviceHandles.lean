import DiskPartitions.WithheldAssembly

/-!
# Handles of the C interface

Arrays and volumes are opened from device handles and handed out as device handles, so one is
made of others: a volume of arrays, an array of volumes.  A program that makes a sequence of
such calls never reads anything wrong off any of the handles it was given, whatever reads of the
first devices fail.
-/

namespace DiskPartitions

open Refusals WithheldReads

/-- Why an array or a volume was refused. -/
inductive ArrayErrorCode
  | none
  | io
  | noMetadata
  | badChecksum
  | corrupt
  | mixedArrays
  | duplicateMember
  | tooFewMembers
  | noSuchVolume
  | unsupported
  | noMembers
  deriving DecidableEq, Repr

def ArrayErrorCode.ofMd : MdError → ArrayErrorCode
  | .block _ => io
  | .noSuperblock _ => noMetadata
  | .badChecksum _ _ _ => badChecksum
  | .corrupt _ _ => corrupt
  | .mixedArrays _ => mixedArrays
  | .duplicateRole _ => duplicateMember
  | .tooFewMembers _ _ _ => tooFewMembers
  | .noCopyLeft _ => tooFewMembers
  | .unsupported _ => unsupported
  | .empty => noMembers

def ArrayErrorCode.ofLvm : LvmError → ArrayErrorCode
  | .block _ => io
  | .noLabel _ => noMetadata
  | .badChecksum _ _ => badChecksum
  | .corrupt _ => corrupt
  | .malformed _ _ => corrupt
  | .noSuchVolume _ => noSuchVolume
  | .missingPv _ => tooFewMembers
  | .unsupported _ => unsupported

/-- What a call returns: a member's own failure keeps its code. -/
inductive CallCode
  | ok
  | nullArg
  | block (error : BlockError)
  | custom
  deriving DecidableEq, Repr

/-- What a call leaves behind: the handle, which is null when it fails, and the reason, which is
not written when an argument is null. -/
structure ArrayAnswer where
  out : Option BlockRead
  code : CallCode
  reason : Option ArrayErrorCode

def MdError.takeBlock : MdError → Option BlockError
  | .block error => some error
  | _ => none

def LvmError.takeBlock : LvmError → Option BlockError
  | .block error => some error
  | _ => none

/-- The device behind each handle; `none` for a null one. -/
abbrev Handles := List (Option BlockRead)

/-- The devices behind the members, unless a member is null. -/
def memberArcs (handles : Handles) (members : List Nat) : Option (List BlockRead) :=
  members.mapM fun member => handles.getD member none

/-- Open an array or a volume over the members, and say what became of it. -/
def openArray {E : Type} (reasonOf : E → ArrayErrorCode) (takeBlock : E → Option BlockError)
    (handles : Handles) (members : List Nat) (openMembers : List BlockRead → Except E BlockRead) :
    ArrayAnswer :=
  match memberArcs handles members with
  | none => { out := none, code := .nullArg, reason := none }
  | some devices =>
      if devices.isEmpty then { out := none, code := .custom, reason := some .noMembers }
      else
        match openMembers devices with
        | .ok dev => { out := some dev, code := .ok, reason := some .none }
        | .error error =>
            { out := none
              code := ((takeBlock error).map CallCode.block).getD .custom
              reason := some (reasonOf error) }

def partitionsMdAssemble (handles : Handles) (members : List Nat) : ArrayAnswer :=
  openArray .ofMd MdError.takeBlock handles members assembleDevice

def partitionsLvmOpen (handles : Handles) (devices : List Nat) (name : String) : ArrayAnswer :=
  openArray .ofLvm LvmError.takeBlock handles devices fun devices => openDevice devices name

/-- A call that opens a device from others. -/
inductive OpenCall
  | mdAssemble (members : List Nat)
  | lvmOpen (devices : List Nat) (name : String)
  deriving DecidableEq, Repr

def OpenCall.answer (handles : Handles) : OpenCall → ArrayAnswer
  | .mdAssemble members => partitionsMdAssemble handles members
  | .lvmOpen devices name => partitionsLvmOpen handles devices name

/-- The handles after a call: the one it hands out comes last. -/
def OpenCall.step (handles : Handles) (call : OpenCall) : Handles :=
  handles ++ [(call.answer handles).out]

def runCalls (handles : Handles) (calls : List OpenCall) : Handles :=
  calls.foldl OpenCall.step handles

/-! ## Over devices that fail -/

/-- A handle that is null, or on a device that withholds from the other handle's. -/
def HandleBelow (handle other : Option BlockRead) : Prop :=
  ∀ dev, handle = some dev → ∃ twin, other = some twin ∧ dev.Withholds twin

def HandlesBelow (handles sure : Handles) : Prop :=
  List.Forall₂ HandleBelow handles sure

/-- What a call may rely on: the copies of an array agree as far as they can be read, and so do
the images of a group's mirrors, and the failures do not hide the newest metadata. -/
def OpenCall.Kept (handles sure : Handles) : OpenCall → Prop
  | .mdAssemble members => ∀ devices, memberArcs sure members = some devices →
      ∀ array, assemble devices = .ok array → array.CopiesAgree
  | .lvmOpen members _ => ∀ devices, memberArcs handles members = some devices →
      ∀ twins, memberArcs sure members = some twins →
        Below (readVolumeGroup devices) (readVolumeGroup twins) ∧
          ∀ mapper, Mapper.ofDevices twins = .ok mapper → mapper.MirrorsAgree

/-- Every call of a run may. -/
def CallsKept : (handles sure : Handles) → List OpenCall → Prop
  | _, _, [] => True
  | handles, sure, call :: calls =>
      call.Kept handles sure ∧ CallsKept (call.step handles) (call.step sure) calls

section Members

variable {handles sure : Handles} (withheld : HandlesBelow handles sure)

include withheld

theorem HandlesBelow.getD (member : Nat) :
    HandleBelow (handles.getD member none) (sure.getD member none) := by
  have related := Slices.rel_getElem? withheld member
  rw [List.getD_eq_getElem?_getD, List.getD_eq_getElem?_getD]
  generalize handles[member]? = first at related ⊢
  generalize sure[member]? = second at related ⊢
  cases related with
  | none =>
      intro dev found
      cases found
  | some own => exact own

/-- Members that are all there are there on the sound devices. -/
theorem HandlesBelow.memberArcs {members : List Nat} {devices : List BlockRead}
    (found : memberArcs handles members = some devices) :
    ∃ twins, DiskPartitions.memberArcs sure members = some twins ∧
      List.Forall₂ BlockRead.Withholds devices twins := by
  unfold DiskPartitions.memberArcs at found ⊢
  induction members generalizing devices with
  | nil =>
      cases found
      exact ⟨[], rfl, .nil⟩
  | cons member members ih =>
      rw [List.mapM_cons] at found ⊢
      obtain ⟨dev, here, found⟩ := Option.bind_eq_some_iff.mp found
      obtain ⟨rest, later, found⟩ := Option.bind_eq_some_iff.mp found
      cases found
      obtain ⟨twin, sound, own⟩ := withheld.getD member dev here
      obtain ⟨twins, others, all⟩ := ih later
      exact ⟨twin :: twins, by rw [sound, others]; rfl, .cons own all⟩

end Members

/-- Opening over members that withhold hands out a device that does, or none. -/
theorem openArray_below {E : Type} {reasonOf : E → ArrayErrorCode}
    {takeBlock : E → Option BlockError} {handles sure : Handles}
    (withheld : HandlesBelow handles sure) {members : List Nat}
    {openMembers : List BlockRead → Except E BlockRead}
    (opens : ∀ devices twins, memberArcs handles members = some devices →
      memberArcs sure members = some twins → List.Forall₂ BlockRead.Withholds devices twins →
        BelowBy BlockRead.Withholds (openMembers devices) (openMembers twins)) :
    HandleBelow (openArray reasonOf takeBlock handles members openMembers).out
      (openArray reasonOf takeBlock sure members openMembers).out := by
  intro dev given
  unfold openArray at given
  split at given
  next => cases given
  next devices found =>
    split at given
    next => cases given
    next filled =>
      split at given
      next dev opened =>
        cases given
        obtain ⟨twins, sound, all⟩ := withheld.memberArcs found
        obtain ⟨twin, again, own⟩ := opens devices twins found sound all _ opened
        refine ⟨twin, ?_, own⟩
        have some_twins : twins.isEmpty = false := by
          cases all with
          | nil => exact absurd rfl filled
          | cons _ _ => rfl
        unfold openArray
        rw [sound]
        dsimp only
        rw [some_twins, if_neg Bool.false_ne_true, again]
      next => cases given

/-- One call keeps every handle below its twin. -/
theorem step_below {handles sure : Handles} (withheld : HandlesBelow handles sure) {call : OpenCall}
    (kept : call.Kept handles sure) : HandlesBelow (call.step handles) (call.step sure) := by
  refine List.rel_append withheld (.cons ?_ .nil)
  cases call with
  | mdAssemble members =>
      refine openArray_below withheld fun devices twins _ sound all => ?_
      exact assembleDevice_withheld all (kept twins sound)
  | lvmOpen members name =>
      refine openArray_below withheld fun devices twins found sound all => ?_
      obtain ⟨newest, agree⟩ := kept devices found twins sound
      exact openDevice_withheld all newest agree

/-- So does any sequence of calls. -/
theorem runCalls_below {handles sure : Handles} (withheld : HandlesBelow handles sure)
    {calls : List OpenCall} (kept : CallsKept handles sure calls) :
    HandlesBelow (runCalls handles calls) (runCalls sure calls) := by
  induction calls generalizing handles sure with
  | nil => exact withheld
  | cons call calls ih => exact ih (step_below withheld kept.1) kept.2

/-- Whatever arrays and volumes a program opens from devices that may fail any of their reads,
and from what it opened before, what it reads off a handle is what it would read if the devices
never failed. -/
theorem runCalls_withheld {devices sure : List BlockRead}
    (withheld : List.Forall₂ BlockRead.Withholds devices sure) {calls : List OpenCall}
    (kept : CallsKept (devices.map some) (sure.map some) calls) {place : Nat} {dev : BlockRead}
    (opened : (runCalls (devices.map some) calls)[place]? = some (some dev)) :
    ∃ twin, (runCalls (sure.map some) calls)[place]? = some (some twin) ∧
      twin.sizeBytes = dev.sizeBytes ∧
      ∀ offset len bytes, dev.readAt offset len = .ok bytes →
        twin.readAt offset len = .ok bytes := by
  have start : HandlesBelow (devices.map some) (sure.map some) := by
    refine List.forall₂_map_left_iff.mpr (List.forall₂_map_right_iff.mpr (withheld.imp ?_))
    rintro dev twin own _ ⟨⟩
    exact ⟨twin, rfl, own⟩
  have related := Slices.rel_getElem? (runCalls_below start kept) place
  rw [opened] at related
  generalize (runCalls (sure.map some) calls)[place]? = other at related ⊢
  cases related with
  | some below =>
      obtain ⟨twin, rfl, own⟩ := below dev rfl
      exact ⟨twin, rfl, own.size.symm, own.reads⟩

/-! ## A mirror of which one leg fails -/

theorem BlockRead.failing_withholds (dev : BlockRead) : dev.failing.Withholds dev where
  size := rfl
  reads off len := by
    unfold failing
    dsimp only
    split
    next => exact .refl _
    next => exact .error _ _

theorem copiesAgree_legMirror : (legMirror false).CopiesAgree where
  legs := by
    intro _ first listed second there offset len inside bytes again read other
    have own : ∀ m ∈ (legMirror false).slots.filterMap id, ∀ bytes,
        m.dev.readAt (m.dataOffset + offset) len = .ok bytes →
          bytes = Slices.slice (List.replicate 1024 5) offset len := by
      intro m listed bytes read
      obtain rfl | rfl : m = ⟨mirrorLeg 2 0, 0, 65536⟩ ∨ m = ⟨mirrorLeg 2 1, 0, 65536⟩ := by
        simpa [legMirror, firstLeg] using listed
      · exact Except.ok.inj (read.symm.trans (readAt_mirrorLeg 0 inside))
      · exact Except.ok.inj (read.symm.trans (readAt_mirrorLeg 1 inside))
    rw [own first listed bytes read, own second there again other]
  copies := by
    intro geo copied
    cases copied

/-- The handle of the mirror reads a byte past the leg that fails. -/
theorem runCalls_failingMirror :
    ∃ dev twin, (runCalls ([firstLeg true, mirrorLeg 2 1].map some) [.mdAssemble [0, 1]])[2]? =
        some (some dev) ∧
      (runCalls ([firstLeg false, mirrorLeg 2 1].map some) [.mdAssemble [0, 1]])[2]? =
        some (some twin) ∧
      ((firstLeg true).readAt 100 1).isOk = false ∧
      dev.readAt 100 1 = .ok [5] ∧ twin.readAt 100 1 = .ok [5] := by
  have handle : ∀ fails, (runCalls ([firstLeg fails, mirrorLeg 2 1].map some)
      [.mdAssemble [0, 1]])[2]? = some (some ((legMirror fails).toBlockRead
        (assembled_of_assemble (assemble_legMirror fails)))) := by
    intro fails
    have out : (partitionsMdAssemble ([firstLeg fails, mirrorLeg 2 1].map some) [0, 1]).out =
        some ((legMirror fails).toBlockRead (assembled_of_assemble (assemble_legMirror fails))) := by
      unfold partitionsMdAssemble openArray
      rw [show memberArcs ([firstLeg fails, mirrorLeg 2 1].map some) [0, 1] =
        some [firstLeg fails, mirrorLeg 2 1] from rfl]
      dsimp only
      rw [assembleDevice_of_assemble (assemble_legMirror fails)]
      rfl
    exact congrArg some out
  have kept : CallsKept ([firstLeg true, mirrorLeg 2 1].map some)
      ([firstLeg false, mirrorLeg 2 1].map some) [.mdAssemble [0, 1]] := by
    refine ⟨?_, trivial⟩
    intro devices members array assembled
    obtain rfl : [firstLeg false, mirrorLeg 2 1] = devices := Option.some.inj members
    rw [assemble_legMirror] at assembled
    cases assembled
    exact copiesAgree_legMirror
  have withheld : List.Forall₂ BlockRead.Withholds [firstLeg true, mirrorLeg 2 1]
      [firstLeg false, mirrorLeg 2 1] :=
    .cons (BlockRead.failing_withholds _) (.cons ⟨rfl, fun _ _ => .refl _⟩ .nil)
  obtain ⟨twin, found, size, reads⟩ := runCalls_withheld withheld kept (handle true)
  have answered : ((legMirror true).toBlockRead
      (assembled_of_assemble (assemble_legMirror true))).readAt 100 1 = .ok [5] := by
    change MdArray.readLegs 100 1 [⟨mirrorLeg 2 1, 0, 65536⟩] (some (.custom "bad sector")) = _
    rw [MdArray.readLegs, readAt_mirrorLeg 1 (by decide)]
    rfl
  exact ⟨_, twin, handle true, found, rfl, answered, reads _ _ _ answered⟩

end DiskPartitions
