import DiskPartitions.AlikePrograms
import DiskPartitions.KeyedGroups
import DiskPartitions.MdArrays

/-!
# The superblock that speaks for an array

A device's superblock is the same whatever place the device is given at: the place only
names it in an error.  The newest superblock of the members, the first of them where
several are as new, is the one assembly goes by from then on.
-/

namespace DiskPartitions

open Refusals KeyedGroups

/-! ## Reading at another place -/

theorem alike_sectorsToBytes (here there sectors : Nat) (what : String) :
    Alike (sectorsToBytes here sectors what) (sectorsToBytes there sectors what) := by
  unfold sectorsToBytes
  exact Alike.ite (fun _ => .refl _) fun _ => .error _ _

theorem alike_parseV1 (buf : List UInt8) (place : Nat) (version : MdVersion)
    (devSize here there : Nat) :
    Alike (parseV1 buf place version devSize here) (parseV1 buf place version devSize there) := by
  unfold parseV1
  refine Alike.ite (fun _ => .refl _) fun _ => Alike.ite (fun _ => .refl _) fun _ => ?_
  refine (Alike.refuseIf _ _ _).bind fun _ => ?_
  refine (Alike.refuseIf _ _ _).bind fun _ => ?_
  refine (alike_sectorsToBytes here there _ _).bind fun dataOffset => ?_
  refine (alike_sectorsToBytes here there _ _).bind fun dataSize => ?_
  refine (alike_sectorsToBytes here there _ _).bind fun componentSize => ?_
  refine (Alike.refuseIf _ _ _).bind fun _ => ?_
  exact (Alike.refuseIf _ _ _).bind fun _ => .refl _

theorem alike_parseV0 (buf : List UInt8) (place here there : Nat) :
    Alike (parseV0 buf place here) (parseV0 buf place there) := by
  unfold parseV0
  exact Alike.ite (fun _ => .refl _) fun _ => (Alike.refuseIf _ _ _).bind fun _ => .refl _

theorem alike_firstV1 (dev : BlockRead) (here there : Nat) (places : List (Nat × MdVersion)) :
    Alike (firstV1 dev here places) (firstV1 dev there places) := by
  induction places with
  | nil => exact .refl _
  | cons candidate rest ih =>
      obtain ⟨place, version⟩ := candidate
      refine Alike.ite (fun _ => ih) fun _ => ?_
      refine (Alike.refl _).bind fun buf => ?_
      refine (alike_parseV1 buf place version _ here there).bind fun found => ?_
      cases found with
      | none => exact ih
      | some sb => exact .refl _

/-- A device says the same of itself at every place. -/
theorem alike_readSuperblockOf (dev : BlockRead) (here there : Nat) :
    Alike (readSuperblockOf dev here) (readSuperblockOf dev there) := by
  unfold readSuperblockOf
  refine (alike_firstV1 dev here there _).bind fun found => ?_
  cases found with
  | some sb => exact .refl _
  | none =>
      refine Alike.ite (fun _ => ?_) fun _ => .refl _
      exact (Alike.refl _).bind fun buf => alike_parseV0 buf _ here there

/-! ## The lead -/

/-- The first of the newest superblocks, when all are of one array. -/
def leadOf (found : List (Nat × BlockRead × MdSuperblock)) : Except MdError MdSuperblock := do
  let uuid := (found.head?.map fun (_, _, sb) => sb.arrayUuid).getD []
  match found.find? fun (_, _, sb) => sb.arrayUuid ≠ uuid with
  | some (member, _, _) => .error (.mixedArrays member)
  | none =>
      let newest := (found.map fun (_, _, sb) => sb.events).foldl max 0
      let (_, _, lead) ← orRefuse (found.find? fun (_, _, sb) => sb.events = newest) .empty
      .ok lead

/-- Assemble an array whose lead is known. -/
def assembleLed (found : List (Nat × BlockRead × MdSuperblock)) (lead : MdSuperblock) :
    Except MdError MdArray := do
  refuseIf (lead.featureMap &&& featureReshapeActive ≠ 0)
    (.unsupported "the array is mid-reshape")
  let n := lead.raidDisks
  refuseIf (n = 0 ∨ v1MaxDev < n) (.corrupt 0 s!"raid_disks {n}")
  let slots ← found.foldlM (placeMember n lead.events) (List.replicate n none)
  let geometry ← levelGeometry lead slots
  refuseIf (∃ m ∈ slots.filterMap id,
      m.dev.sizeBytes.toNat < m.dataOffset + memberSpan lead geometry.size)
    (.corrupt 0 "a member is shorter than the array needs")
  .ok {
    slots
    level := lead.level
    layout := lead.layout
    chunk := lead.chunkBytes
    size := geometry.size
    zones := geometry.zones
    raid10 := geometry.raid10
    superblock := lead }

/-- Assembly finds the lead and goes by it. -/
theorem assembleFound_eq (found : List (Nat × BlockRead × MdSuperblock)) :
    assembleFound found = leadOf found >>= assembleLed found := by
  unfold assembleFound leadOf
  rcases mixed : found.find? (fun (_, _, sb) => sb.arrayUuid ≠
      (found.head?.map fun (_, _, sb) => sb.arrayUuid).getD []) with _ | other
  · simp only [mixed]
    rcases newest : found.find? (fun (_, _, sb) =>
        sb.events = (found.map fun (_, _, sb) => sb.events).foldl max 0) with _ | lead
    · simp only [newest, orRefuse, error_bind]
    · have highest := List.find?_some newest
      rw [decide_eq_true_eq] at highest
      simp only [newest, orRefuse, ok_bind, assembleLed, highest]
  · simp only [mixed, error_bind]

/-- The array keeps the superblock assembly went by. -/
theorem superblock_of_assembleLed {found : List (Nat × BlockRead × MdSuperblock)}
    {lead : MdSuperblock} {array : MdArray} (assembled : assembleLed found lead = .ok array) :
    array.superblock = lead := by
  unfold assembleLed at assembled
  obtain ⟨_, assembled⟩ := refuseIf_bind_eq_ok.mp assembled
  obtain ⟨_, assembled⟩ := refuseIf_bind_eq_ok.mp assembled
  obtain ⟨slots, _, assembled⟩ := bind_eq_ok.mp assembled
  obtain ⟨geometry, _, assembled⟩ := bind_eq_ok.mp assembled
  obtain ⟨_, assembled⟩ := refuseIf_bind_eq_ok.mp assembled
  cases assembled
  rfl

/-- Assembly that succeeds keeps the lead it found. -/
theorem superblock_of_assemble {devices : List BlockRead}
    {found : List (Nat × BlockRead × MdSuperblock)} {lead : MdSuperblock} {array : MdArray}
    (read : readMembers devices = .ok found) (led : leadOf found = .ok lead)
    (assembled : assemble devices = .ok array) : array.superblock = lead := by
  unfold assemble at assembled
  obtain ⟨_, assembled⟩ := refuseIf_bind_eq_ok.mp assembled
  rw [read, ok_bind, assembleFound_eq, led, ok_bind] at assembled
  exact superblock_of_assembleLed assembled

/-! ## The lead of devices whose superblocks are known -/

/-- Devices with the superblocks they carry. -/
def CarriesEach (devices : List BlockRead) (superblocks : List MdSuperblock) : Prop :=
  List.Forall₂ (fun dev sb => ∃ member, readSuperblockOf dev member = .ok (some sb))
    devices superblocks

/-- Reading the members of an array gives the superblocks they carry. -/
theorem readMembers_of_carriesEach {devices : List BlockRead} {superblocks : List MdSuperblock}
    (carried : CarriesEach devices superblocks) :
    readMembers devices = .ok ((devices.zip superblocks).zipIdx.map fun pair =>
      (pair.2, pair.1.1, pair.1.2)) := by
  refine mapM_of_forall₂ ?_
  generalize 0 = start
  induction carried generalizing start with
  | nil => exact .nil
  | cons own rest ih =>
      obtain ⟨member, read⟩ := own
      refine .cons ?_ (ih (start + 1))
      simp only [(alike_readSuperblockOf _ member start).eq_ok read, ok_bind, orRefuse]

/-- The lead of superblocks of one array is the first of the newest. -/
theorem leadOf_of_firstHighest {found : List (Nat × BlockRead × MdSuperblock)}
    {lead : MdSuperblock}
    (uniform : ∀ member ∈ found, member.2.2.arrayUuid = lead.arrayUuid)
    (newest : FirstHighest MdSuperblock.events (found.map fun member => member.2.2) lead) :
    leadOf found = .ok lead := by
  have highest : (found.map fun (_, _, sb) => sb.events).foldl max 0 = lead.events := by
    have counted := newest.foldl_max
    rwa [List.map_map] at counted
  obtain ⟨first, rest, rfl⟩ : ∃ first rest, found = first :: rest := by
    cases found with
    | nil => cases newest.mem
    | cons first rest => exact ⟨first, rest, rfl⟩
  have same : (first :: rest).find? (fun (_, _, sb) => sb.arrayUuid ≠
      ((first :: rest).head?.map fun (_, _, sb) => sb.arrayUuid).getD []) = none := by
    rw [List.find?_eq_none]
    intro member listed
    simp [uniform member listed, uniform first (by simp)]
  have placed := newest.found
  rw [List.find?_map, Option.map_eq_some_iff] at placed
  obtain ⟨member, found, own⟩ := placed
  have picked : (first :: rest).find? (fun (_, _, sb) =>
      sb.events = ((first :: rest).map fun (_, _, sb) => sb.events).foldl max 0) =
        some member := by
    rw [highest]
    exact found
  unfold leadOf
  simp only [same, picked, orRefuse, ok_bind, own]

/-- Devices that carry superblocks of one array assemble under the first of the newest. -/
theorem lead_of_carriesEach {devices : List BlockRead} {superblocks : List MdSuperblock}
    {lead : MdSuperblock} (carried : CarriesEach devices superblocks)
    (uniform : ∀ sb ∈ superblocks, sb.arrayUuid = lead.arrayUuid)
    (newest : FirstHighest MdSuperblock.events superblocks lead) :
    ∃ found, readMembers devices = .ok found ∧ leadOf found = .ok lead := by
  refine ⟨_, readMembers_of_carriesEach carried, ?_⟩
  have read : ((devices.zip superblocks).zipIdx.map fun pair =>
      (pair.2, pair.1.1, pair.1.2)).map (fun member => member.2.2) = superblocks := by
    calc ((devices.zip superblocks).zipIdx.map fun pair =>
        (pair.2, pair.1.1, pair.1.2)).map (fun member => member.2.2)
        = ((devices.zip superblocks).zipIdx.map Prod.fst).map Prod.snd := by
          rw [List.map_map, List.map_map]
          rfl
      _ = superblocks := by
          rw [List.zipIdx_map_fst]
          exact List.map_snd_zip (Nat.le_of_eq carried.length_eq.symm)
  refine leadOf_of_firstHighest ?_ (by rw [read]; exact newest)
  intro member listed
  have own : member.2.2 ∈ superblocks := by
    rw [← read]
    exact List.mem_map_of_mem listed
  exact uniform _ own

end DiskPartitions
