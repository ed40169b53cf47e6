import DiskPartitions.ClaimedSlots
import DiskPartitions.LeadSuperblocks
import DiskPartitions.ZonedArrays

/-!
# Assembling an array from its members in another order

Every member claims the slot its superblock names, or is set aside, and the claims of an
assembled array are on slots of their own.  So the members' order does not matter as far as
the newest superblocks agree on the array's shape, and what is set aside is never read.
-/

namespace DiskPartitions

open Refusals KeyedGroups ClaimedSlots Slices

/-! ## What the members claim -/

/-- The slot of an active member as new as the newest and not in recovery. -/
def slotOf (n newest : Nat) (sb : MdSuperblock) : Option Nat :=
  match sb.role with
  | .active slot =>
      if sb.events < newest ∨ sb.featureMap &&& featureRecoveryOffset ≠ 0 then none
      else if n ≤ slot then none
      else some slot
  | _ => none

/-- What a device claims by its superblock. -/
def claimOf (n newest : Nat) (member : BlockRead × MdSuperblock) : Option (Nat × Member) :=
  (slotOf n newest member.2).map fun slot =>
    (slot, { dev := member.1, dataOffset := member.2.dataOffset, dataSize := member.2.dataSize })

theorem slotOf_eq_some {n newest slot : Nat} {sb : MdSuperblock}
    (placed : slotOf n newest sb = some slot) :
    sb.role = .active slot ∧ newest ≤ sb.events ∧
      sb.featureMap &&& featureRecoveryOffset = 0 ∧ slot < n := by
  unfold slotOf at placed
  split at placed
  next active =>
    split at placed
    next => cases placed
    next current =>
      split at placed
      next => cases placed
      next inside =>
        cases placed
        rw [not_or, Nat.not_lt, not_not] at current
        exact ⟨active, current.1, current.2, Nat.lt_of_not_le inside⟩
  next => cases placed

theorem claimOf_eq_some {n newest : Nat} {member : BlockRead × MdSuperblock}
    {claim : Nat × Member} (claims : claimOf n newest member = some claim) :
    slotOf n newest member.2 = some claim.1 ∧
      claim.2 = ⟨member.1, member.2.dataOffset, member.2.dataSize⟩ := by
  obtain ⟨slot, placed, rfl⟩ := Option.map_eq_some_iff.mp claims
  exact ⟨placed, rfl⟩

/-- Placing a member is claiming its slot. -/
theorem placeMember_eq (n newest : Nat) (slots : List (Option Member))
    (found : Nat × BlockRead × MdSuperblock) :
    placeMember n newest slots found = match claimOf n newest found.2 with
      | some claim => takeSlot MdError.duplicateRole slots claim
      | none => .ok slots := by
  obtain ⟨place, dev, sb⟩ := found
  cases role : sb.role with
  | active slot =>
      simp only [placeMember, claimOf, slotOf, role]
      split
      next => rfl
      next =>
        split
        next => rfl
        next => rfl
  | spare => simp only [placeMember, claimOf, slotOf, role, Option.map_none]
  | faulty => simp only [placeMember, claimOf, slotOf, role, Option.map_none]
  | journal => simp only [placeMember, claimOf, slotOf, role, Option.map_none]

theorem foldlM_placeMember (n newest : Nat) (found : List (Nat × BlockRead × MdSuperblock))
    (slots : List (Option Member)) :
    found.foldlM (placeMember n newest) slots =
      ((found.map Prod.snd).filterMap (claimOf n newest)).foldlM
        (takeSlot MdError.duplicateRole) slots := by
  induction found generalizing slots with
  | nil => rfl
  | cons member found ih =>
      rw [List.foldlM_cons, placeMember_eq, List.map_cons, List.filterMap_cons]
      cases claimOf n newest member.2 with
      | none =>
          dsimp only
          rw [ok_bind]
          exact ih slots
      | some claim =>
          dsimp only
          rw [List.foldlM_cons]
          exact bind_congr ih

/-! ## The shape of an array -/

/-- Two superblocks state the same array, as far as assembly looks at the one it goes by. -/
structure SameShape (first second : MdSuperblock) : Prop where
  level : first.level = second.level
  layout : first.layout = second.layout
  chunk : first.chunkBytes = second.chunkBytes
  disks : first.raidDisks = second.raidDisks
  size : first.componentSize = second.componentSize
  reshape : first.featureMap &&& featureReshapeActive = second.featureMap &&& featureReshapeActive

theorem levelGeometry_congr {first second : MdSuperblock} (same : SameShape first second)
    (slots : List (Option Member)) : levelGeometry first slots = levelGeometry second slots := by
  obtain ⟨level, layout, chunk, disks, size, _⟩ := same
  unfold levelGeometry linearGeometry raid1Geometry raid0Geometry raid10Geometry parityGeometry
  simp only [level, layout, chunk, disks, size]

/-- What assembly makes of members in their slots. -/
def finishArray (lead : MdSuperblock) (slots : List (Option Member)) : Except MdError MdArray := do
  let geometry ← levelGeometry lead slots
  refuseIf (∃ m ∈ slots.filterMap id,
      m.dev.sizeBytes.toNat < m.dataOffset + memberSpan lead geometry.size)
    (.corrupt 0 "a member is shorter than the array needs")
  .ok {
    slots
    level := lead.level
    layout := lead.layout
    chunk := lead.chunkBytes
    size := geometry.size
    zones := geometry.zones
    raid10 := geometry.raid10
    superblock := lead }

theorem slots_of_finishArray {lead : MdSuperblock} {slots : List (Option Member)}
    {array : MdArray} (finished : finishArray lead slots = .ok array) : array.slots = slots := by
  unfold finishArray at finished
  obtain ⟨geometry, _, finished⟩ := bind_eq_ok.mp finished
  obtain ⟨_, finished⟩ := refuseIf_bind_eq_ok.mp finished
  cases finished
  rfl

/-- Superblocks of one shape make the same array of the same members. -/
theorem finishArray_congr {first second : MdSuperblock} (same : SameShape first second)
    {slots : List (Option Member)} {array : MdArray}
    (finished : finishArray first slots = .ok array) :
    finishArray second slots = .ok { array with superblock := second } := by
  unfold finishArray at finished ⊢
  obtain ⟨geometry, shaped, finished⟩ := bind_eq_ok.mp finished
  obtain ⟨fits, finished⟩ := refuseIf_bind_eq_ok.mp finished
  have span : memberSpan second geometry.size = memberSpan first geometry.size := by
    unfold memberSpan
    rw [same.level, same.size]
  cases finished
  rw [← levelGeometry_congr same, shaped, ok_bind, span, refuseIf_of_not fits, ok_bind,
    same.level, same.layout, same.chunk]

theorem assembleLed_eq (found : List (Nat × BlockRead × MdSuperblock)) (lead : MdSuperblock) :
    assembleLed found lead = (do
      refuseIf (lead.featureMap &&& featureReshapeActive ≠ 0)
        (.unsupported "the array is mid-reshape")
      refuseIf (lead.raidDisks = 0 ∨ v1MaxDev < lead.raidDisks)
        (.corrupt 0 s!"raid_disks {lead.raidDisks}")
      let slots ← ((found.map Prod.snd).filterMap (claimOf lead.raidDisks lead.events)).foldlM
        (takeSlot MdError.duplicateRole) (List.replicate lead.raidDisks none)
      finishArray lead slots) := by
  unfold assembleLed
  simp only [foldlM_placeMember]
  rfl

/-! ## The superblocks devices carry -/

/-- The superblock a device carries, when it can be read and is there. -/
def superblockOf (dev : BlockRead) : Option MdSuperblock :=
  match readSuperblockOf dev 0 with
  | .ok found => found
  | .error _ => none

/-- A device with the superblock it carries. -/
def carrierOf (dev : BlockRead) : Option (BlockRead × MdSuperblock) :=
  (superblockOf dev).map fun sb => (dev, sb)

theorem superblockOf_eq_some {dev : BlockRead} {sb : MdSuperblock} (place : Nat) :
    superblockOf dev = some sb ↔ readSuperblockOf dev place = .ok (some sb) := by
  unfold superblockOf
  rcases (alike_readSuperblockOf dev 0 place).cases with ⟨found, here, there⟩ |
    ⟨_, _, here, there⟩
  · rw [here, there]
    exact ⟨congrArg Except.ok, Except.ok.inj⟩
  · rw [here, there]
    constructor
    · intro found
      cases found
    · intro found
      cases found

/-- Reading the members reads the superblock each of them carries. -/
theorem carriers_of_readMembers {devices : List BlockRead}
    {found : List (Nat × BlockRead × MdSuperblock)} (read : readMembers devices = .ok found) :
    (∀ dev ∈ devices, ∃ sb, superblockOf dev = some sb) ∧
      found.map Prod.snd = devices.filterMap carrierOf := by
  have each := mapM_eq_ok read
  generalize 0 = start at each
  clear read
  induction devices generalizing found start with
  | nil =>
      cases each
      exact ⟨by simp, rfl⟩
  | cons dev devices ih =>
      rw [List.zipIdx_cons] at each
      cases each with
      | @cons _ member _ found own rest =>
          obtain ⟨carried, same⟩ := ih (start + 1) rest
          obtain ⟨sb, readHere, own⟩ := bind_eq_ok.mp own
          obtain ⟨sb, present, own⟩ := bind_eq_ok.mp own
          rw [orRefuse_eq_ok] at present
          subst present
          cases own
          have here := (superblockOf_eq_some start).mpr readHere
          refine ⟨List.forall_mem_cons.mpr ⟨⟨sb, here⟩, carried⟩, ?_⟩
          have carrier : carrierOf dev = some (dev, sb) := by rw [carrierOf, here, Option.map_some]
          rw [List.map_cons, List.filterMap_cons_some carrier, same]

theorem exists_readMembers {devices : List BlockRead}
    (carried : ∀ dev ∈ devices, ∃ sb, superblockOf dev = some sb) :
    ∃ found, readMembers devices = .ok found := by
  have each : CarriesEach devices (devices.filterMap superblockOf) := by
    induction devices with
    | nil => exact .nil
    | cons dev devices ih =>
        rw [List.forall_mem_cons] at carried
        obtain ⟨⟨sb, here⟩, rest⟩ := carried
        rw [List.filterMap_cons_some here]
        exact .cons ⟨0, (superblockOf_eq_some 0).mp here⟩ (ih rest)
  exact ⟨_, readMembers_of_carriesEach each⟩

/-- The lead is the first of the newest superblocks, and all are of its array. -/
theorem firstHighest_of_leadOf {found : List (Nat × BlockRead × MdSuperblock)}
    {lead : MdSuperblock} (led : leadOf found = .ok lead) :
    (∀ member ∈ found, member.2.2.arrayUuid = lead.arrayUuid) ∧
      FirstHighest MdSuperblock.events (found.map fun member => member.2.2) lead := by
  have uniform : ∀ member ∈ found, member.2.2.arrayUuid =
      (found.head?.map fun member => member.2.2.arrayUuid).getD [] := by
    unfold leadOf at led
    dsimp only at led
    split at led
    next => cases led
    next uniform =>
      rw [List.find?_eq_none] at uniform
      intro member listed
      simpa using uniform member listed
  cases found with
  | nil => cases led
  | cons first rest =>
      have best : FirstHighest MdSuperblock.events
          ((first :: rest).map fun member => member.2.2) _ := firstHighest_foldl _ _
      obtain ⟨member, listed, own⟩ := List.mem_map.mp best.mem
      have same : ∀ other ∈ first :: rest, other.2.2.arrayUuid = member.2.2.arrayUuid :=
        fun other given => (uniform other given).trans (uniform member listed).symm
      rw [← own] at best
      obtain rfl := Except.ok.inj ((leadOf_of_firstHighest same best).symm.trans led)
      exact ⟨same, best⟩

theorem exists_leadOf {found : List (Nat × BlockRead × MdSuperblock)} {uuid : List UInt8}
    (some_found : found ≠ []) (uniform : ∀ member ∈ found, member.2.2.arrayUuid = uuid) :
    ∃ lead, leadOf found = .ok lead := by
  cases found with
  | nil => exact absurd rfl some_found
  | cons first rest =>
      have best : FirstHighest MdSuperblock.events
          ((first :: rest).map fun member => member.2.2) _ := firstHighest_foldl _ _
      obtain ⟨member, listed, own⟩ := List.mem_map.mp best.mem
      rw [← own] at best
      exact ⟨_, leadOf_of_firstHighest
        (fun other given => (uniform other given).trans (uniform member listed).symm) best⟩

/-! ## Assembly as a whole -/

theorem assemble_eq_ok {devices : List BlockRead} {array : MdArray} :
    assemble devices = .ok array ↔ ∃ found lead, readMembers devices = .ok found ∧
      leadOf found = .ok lead ∧ assembleLed found lead = .ok array := by
  unfold assemble
  rw [refuseIf_bind_eq_ok]
  constructor
  · rintro ⟨_, assembled⟩
    obtain ⟨found, read, assembled⟩ := bind_eq_ok.mp assembled
    rw [assembleFound_eq] at assembled
    obtain ⟨lead, led, assembled⟩ := bind_eq_ok.mp assembled
    exact ⟨found, lead, read, led, assembled⟩
  · rintro ⟨found, lead, read, led, assembled⟩
    refine ⟨?_, ?_⟩
    · rintro rfl
      cases read
      cases led
    · rw [read, ok_bind, assembleFound_eq, led, ok_bind, assembled]

/-- The claims of the members under a lead. -/
def claimsUnder (lead : MdSuperblock) (found : List (Nat × BlockRead × MdSuperblock)) :
    List (Nat × Member) :=
  (found.map Prod.snd).filterMap (claimOf lead.raidDisks lead.events)

theorem claimsUnder_inside {lead : MdSuperblock} {found : List (Nat × BlockRead × MdSuperblock)} :
    ∀ claim ∈ claimsUnder lead found, claim.1 < lead.raidDisks := by
  intro claim listed
  obtain ⟨member, _, claims⟩ := List.mem_filterMap.mp listed
  exact (slotOf_eq_some (claimOf_eq_some claims).1).2.2.2

/-- An array is assembled when its claims are on slots of their own and its level can do
with them. -/
theorem assembleLed_eq_ok {found : List (Nat × BlockRead × MdSuperblock)} {lead : MdSuperblock}
    {array : MdArray} : assembleLed found lead = .ok array ↔
      lead.featureMap &&& featureReshapeActive = 0 ∧
      ¬ (lead.raidDisks = 0 ∨ v1MaxDev < lead.raidDisks) ∧
      ((claimsUnder lead found).map Prod.fst).Nodup ∧
      finishArray lead (filled lead.raidDisks (claimsUnder lead found)) = .ok array := by
  rw [assembleLed_eq, refuseIf_bind_eq_ok, refuseIf_bind_eq_ok, not_not]
  refine and_congr_right fun _ => and_congr_right fun _ => ?_
  rw [bind_eq_ok]
  constructor
  · rintro ⟨slots, placed, finished⟩
    have nodup := nodup_of_foldlM_takeSlot claimsUnder_inside placed
    obtain rfl := Except.ok.inj (placed.symm.trans (foldlM_takeSlot nodup claimsUnder_inside))
    exact ⟨nodup, finished⟩
  · rintro ⟨nodup, finished⟩
    exact ⟨_, foldlM_takeSlot nodup claimsUnder_inside, finished⟩

/-- Some device carries the superblock. -/
def Carried (devices : List BlockRead) (sb : MdSuperblock) : Prop :=
  ∃ dev ∈ devices, superblockOf dev = some sb

/-- The superblock carries the newest event count. -/
def CarriedNewest (devices : List BlockRead) (sb : MdSuperblock) : Prop :=
  Carried devices sb ∧ ∀ other, Carried devices other → other.events ≤ sb.events

/-- The superblocks with the newest event count state the same array. -/
def NewestAgree (devices : List BlockRead) : Prop :=
  ∀ first second, CarriedNewest devices first → CarriedNewest devices second →
    SameShape first second

/-- The superblocks read are those the devices carry, in their order. -/
theorem superblocks_of_readMembers {devices : List BlockRead}
    {found : List (Nat × BlockRead × MdSuperblock)} (read : readMembers devices = .ok found) :
    found.map (fun member => member.2.2) = devices.filterMap superblockOf := by
  have own : ∀ dev, (carrierOf dev).map Prod.snd = superblockOf dev := by
    intro dev
    rw [carrierOf, Option.map_map]
    exact Option.map_id'
  calc found.map (fun member => member.2.2)
      = (found.map Prod.snd).map Prod.snd := by
        rw [List.map_map]
        rfl
    _ = devices.filterMap fun dev => (carrierOf dev).map Prod.snd := by
        rw [(carriers_of_readMembers read).2, List.map_filterMap]
    _ = devices.filterMap superblockOf := List.filterMap_congr fun dev _ => own dev

theorem carried_iff {devices : List BlockRead} {found : List (Nat × BlockRead × MdSuperblock)}
    (read : readMembers devices = .ok found) {sb : MdSuperblock} :
    Carried devices sb ↔ sb ∈ found.map fun member => member.2.2 := by
  rw [superblocks_of_readMembers read, List.mem_filterMap]
  rfl

theorem carriedNewest_of_leadOf {devices : List BlockRead}
    {found : List (Nat × BlockRead × MdSuperblock)} {lead : MdSuperblock}
    (read : readMembers devices = .ok found) (led : leadOf found = .ok lead) :
    CarriedNewest devices lead := by
  have best := (firstHighest_of_leadOf led).2
  refine ⟨(carried_iff read).mpr best.mem, ?_⟩
  intro other carried
  exact best.highest other ((carried_iff read).mp carried)

theorem carried_perm {devices others : List BlockRead} (perm : devices.Perm others)
    (sb : MdSuperblock) : Carried devices sb ↔ Carried others sb := by
  simp only [Carried, perm.mem_iff]

theorem carriedNewest_perm {devices others : List BlockRead} (perm : devices.Perm others)
    (sb : MdSuperblock) : CarriedNewest devices sb ↔ CarriedNewest others sb := by
  simp only [CarriedNewest, carried_perm perm]

/-- The members in another order make the same array. -/
theorem assemble_perm {devices others : List BlockRead} (agree : NewestAgree devices)
    (perm : devices.Perm others) {array : MdArray} (assembled : assemble devices = .ok array) :
    ∃ superblock, assemble others = .ok { array with superblock } := by
  obtain ⟨found, lead, read, led, assembled⟩ := assemble_eq_ok.mp assembled
  obtain ⟨uniform, _⟩ := firstHighest_of_leadOf led
  obtain ⟨carried, members⟩ := carriers_of_readMembers read
  obtain ⟨again, readAgain⟩ := exists_readMembers fun dev given =>
    carried dev (perm.mem_iff.mpr given)
  have membersPerm : (found.map Prod.snd).Perm (again.map Prod.snd) := by
    rw [members, (carriers_of_readMembers readAgain).2]
    exact perm.filterMap _
  have uniformAgain : ∀ member ∈ again, member.2.2.arrayUuid = lead.arrayUuid := by
    intro member listed
    obtain ⟨own, given, same⟩ := List.mem_map.mp
      (membersPerm.mem_iff.mpr (List.mem_map_of_mem listed : member.2 ∈ _))
    rw [← same]
    exact uniform own given
  have someAgain : again ≠ [] := by
    rintro rfl
    have none := List.map_eq_nil_iff.mp membersPerm.eq_nil
    rw [none] at led
    cases led
  obtain ⟨other, ledAgain⟩ := exists_leadOf someAgain uniformAgain
  have newest := carriedNewest_of_leadOf read led
  have newestAgain := (carriedNewest_perm perm other).mpr (carriedNewest_of_leadOf readAgain ledAgain)
  have same := agree lead other newest newestAgain
  have events : lead.events = other.events :=
    Nat.le_antisymm (newestAgain.2 lead newest.1) (newest.2 other newestAgain.1)
  have claims : (claimsUnder lead found).Perm (claimsUnder other again) := by
    unfold claimsUnder
    rw [← same.disks, ← events]
    exact membersPerm.filterMap _
  obtain ⟨settled, sized, nodup, finished⟩ := assembleLed_eq_ok.mp assembled
  refine ⟨other, assemble_eq_ok.mpr ⟨again, other, readAgain, ledAgain,
    assembleLed_eq_ok.mpr ⟨?_, ?_, ?_, ?_⟩⟩⟩
  · rw [← same.reshape]
    exact settled
  · rw [← same.disks]
    exact sized
  · exact (claims.map Prod.fst).nodup_iff.mp nodup
  · rw [← same.disks, ← filled_perm nodup claims]
    exact finishArray_congr same finished

/-! ## What is set aside -/

/-- An active member, as new as any and wholly recovered. -/
def Current (devices : List BlockRead) (sb : MdSuperblock) (slot : Nat) : Prop :=
  sb.role = .active slot ∧ (∀ other, Carried devices other → other.events ≤ sb.events) ∧
    sb.featureMap &&& featureRecoveryOffset = 0

/-- Every device the array reads is a current member, in the slot its superblock names. -/
def ReadsCurrent (devices : List BlockRead) (array : MdArray) : Prop :=
  ∀ (slot : Nat) (m : Member), array.slots[slot]? = some (some m) →
    ∃ dev ∈ devices, ∃ sb, superblockOf dev = some sb ∧ Current devices sb slot ∧
      m = { dev, dataOffset := sb.dataOffset, dataSize := sb.dataSize }

/-- The devices again, each with its superblock, but with other contents where the
superblock makes it no current member. -/
def SameButSetAside (devices replaced : List BlockRead) : Prop :=
  List.Forall₂ (fun dev other => superblockOf other = superblockOf dev ∧
    ∀ sb slot, superblockOf dev = some sb → Current devices sb slot → other = dev)
    devices replaced

theorem readsCurrent_of_assemble {devices : List BlockRead} {array : MdArray}
    (assembled : assemble devices = .ok array) : ReadsCurrent devices array := by
  obtain ⟨found, lead, read, led, assembled⟩ := assemble_eq_ok.mp assembled
  obtain ⟨_, _, nodup, finished⟩ := assembleLed_eq_ok.mp assembled
  intro slot m placed
  rw [slots_of_finishArray finished] at placed
  have inside : slot < lead.raidDisks := by
    have bound := (List.getElem?_eq_some_iff.mp placed).1
    simpa [filled] using bound
  have claimed : claimed (claimsUnder lead found) slot = some m := by
    rw [← getD_filled inside, List.getD_eq_getElem?_getD, placed]
    rfl
  obtain ⟨member, listed, claims⟩ :=
    List.mem_filterMap.mp ((claimed_eq_some_iff nodup).mp claimed)
  rw [(carriers_of_readMembers read).2] at listed
  obtain ⟨dev, given, carries⟩ := List.mem_filterMap.mp listed
  obtain ⟨sb, carried, rfl⟩ := Option.map_eq_some_iff.mp carries
  obtain ⟨own, content⟩ := claimOf_eq_some claims
  obtain ⟨role, current, recovered, _⟩ := slotOf_eq_some own
  have newest := (carriedNewest_of_leadOf read led).2
  exact ⟨dev, given, sb, carried,
    ⟨role, fun other there => Nat.le_trans (newest other there) current, recovered⟩, content⟩

/-- Items picked alike one by one are picked alike as lists. -/
theorem filterMap_of_forall₂ {α β : Type} {pick : α → Option β} {first second : List α}
    (alike : List.Forall₂ (fun here there => pick here = pick there) first second) :
    first.filterMap pick = second.filterMap pick := by
  induction alike with
  | nil => rfl
  | cons same _ ih => rw [List.filterMap_cons, List.filterMap_cons, same, ih]

/-- Devices that are set aside may hold anything: the array is the same. -/
theorem assemble_sameButSetAside {devices replaced : List BlockRead} {array : MdArray}
    (assembled : assemble devices = .ok array) (same : SameButSetAside devices replaced) :
    assemble replaced = .ok array := by
  obtain ⟨found, lead, read, led, assembled⟩ := assemble_eq_ok.mp assembled
  obtain ⟨uniform, best⟩ := firstHighest_of_leadOf led
  obtain ⟨carried, members⟩ := carriers_of_readMembers read
  have newest := carriedNewest_of_leadOf read led
  obtain ⟨again, readAgain⟩ : ∃ again, readMembers replaced = .ok again := by
    refine exists_readMembers fun other given => ?_
    obtain ⟨dev, listed, superblock, _⟩ := exists_of_mem_right same given
    obtain ⟨sb, own⟩ := carried dev listed
    exact ⟨sb, superblock.trans own⟩
  have superblocks : again.map (fun member => member.2.2) =
      found.map fun member => member.2.2 := by
    rw [superblocks_of_readMembers read, superblocks_of_readMembers readAgain]
    exact (filterMap_of_forall₂ (same.imp fun _ _ own => own.1.symm)).symm
  have uniformAgain : ∀ member ∈ again, member.2.2.arrayUuid = lead.arrayUuid := by
    intro member listed
    have known : member.2.2 ∈ found.map fun member => member.2.2 := by
      rw [← superblocks]
      exact List.mem_map_of_mem listed
    obtain ⟨own, given, equal⟩ := List.mem_map.mp known
    rw [← equal]
    exact uniform own given
  have ledAgain := leadOf_of_firstHighest uniformAgain (superblocks ▸ best)
  have claims : claimsUnder lead again = claimsUnder lead found := by
    unfold claimsUnder
    rw [members, (carriers_of_readMembers readAgain).2, List.filterMap_filterMap,
      List.filterMap_filterMap]
    refine (filterMap_of_forall₂ (same.imp ?_)).symm
    rintro dev other ⟨superblock, kept⟩
    unfold carrierOf
    rw [superblock]
    cases own : superblockOf dev with
    | none => rfl
    | some sb =>
        rw [Option.map_some, Option.map_some, Option.bind_some, Option.bind_some, claimOf, claimOf]
        cases placed : slotOf lead.raidDisks lead.events sb with
        | none => rfl
        | some slot =>
            obtain ⟨role, current, recovered, _⟩ := slotOf_eq_some placed
            rw [kept sb slot own ⟨role,
              fun other there => Nat.le_trans (newest.2 other there) current, recovered⟩]
  rw [assembleLed_eq_ok, ← claims, ← assembleLed_eq_ok] at assembled
  exact assemble_eq_ok.mpr ⟨again, lead, readAgain, ledAgain, assembled⟩

/-- The order of the members does not matter, and what is set aside is never read. -/
theorem assemble_order {devices others : List BlockRead} (agree : NewestAgree devices)
    (perm : devices.Perm others) :
    ((∃ array, assemble devices = .ok array) ↔ ∃ array, assemble others = .ok array) ∧
      ∀ array other, assemble devices = .ok array → assemble others = .ok other →
        other.size = array.size ∧ other.slots = array.slots ∧
          (∀ offset len, other.readAt offset len = array.readAt offset len) ∧
          ReadsCurrent devices array ∧
          ∀ replaced, SameButSetAside devices replaced → assemble replaced = .ok array := by
  have agreeAgain : NewestAgree others := by
    intro first second left right
    exact agree first second ((carriedNewest_perm perm first).mpr left)
      ((carriedNewest_perm perm second).mpr right)
  refine ⟨⟨?_, ?_⟩, ?_⟩
  · rintro ⟨array, assembled⟩
    obtain ⟨superblock, again⟩ := assemble_perm agree perm assembled
    exact ⟨_, again⟩
  · rintro ⟨array, assembled⟩
    obtain ⟨superblock, again⟩ := assemble_perm agreeAgain perm.symm assembled
    exact ⟨_, again⟩
  · intro array other assembled assembledAgain
    obtain ⟨superblock, again⟩ := assemble_perm agree perm assembled
    obtain rfl := Except.ok.inj (again.symm.trans assembledAgain)
    exact ⟨rfl, rfl, fun _ _ => rfl, readsCurrent_of_assemble assembled,
      fun _ same => assemble_sameButSetAside assembled same⟩

/-! ## The two striped members, the second given first -/

theorem superblockOf_raid0Member {slot : Nat} (small : slot < 2) {byte : UInt8}
    (plain : LittleEndian.decode [byte, byte, byte, byte] ≠ mdMagic) :
    superblockOf (raid0Member slot byte) = some (raid0Words slot).superblock :=
  (superblockOf_eq_some 0).mpr
    (readSuperblockOf_legacyMember (raid0Words_fits small) (plainArea_const plain) 0)

theorem newestAgree_striped : NewestAgree [raid0Member 0 5, raid0Member 1 6] := by
  have carried : ∀ sb, Carried [raid0Member 0 5, raid0Member 1 6] sb →
      ∃ slot, sb = (raid0Words slot).superblock := by
    rintro sb ⟨dev, listed, own⟩
    rcases List.mem_pair.mp listed with rfl | rfl
    · rw [superblockOf_raid0Member (by decide) (by decide)] at own
      exact ⟨0, (Option.some.inj own).symm⟩
    · rw [superblockOf_raid0Member (by decide) (by decide)] at own
      exact ⟨1, (Option.some.inj own).symm⟩
  intro first second left right
  obtain ⟨_, rfl⟩ := carried first left.1
  obtain ⟨_, rfl⟩ := carried second right.1
  exact ⟨rfl, rfl, rfl, rfl, rfl, rfl⟩

theorem assemble_order_striped :
    ∃ array, assemble [raid0Member 1 6, raid0Member 0 5] = .ok array ∧
      array.slots = stripedArray.slots ∧
      ∀ offset len, array.readAt offset len = stripedArray.readAt offset len := by
  obtain ⟨opens, same⟩ := assemble_order newestAgree_striped
    (List.Perm.swap (raid0Member 1 6) (raid0Member 0 5) [])
  obtain ⟨array, assembled⟩ := opens.mp ⟨_, assemble_stripedArray⟩
  obtain ⟨_, slots, reads, _⟩ := same _ _ assemble_stripedArray assembled
  exact ⟨array, assembled, slots, reads⟩

end DiskPartitions
