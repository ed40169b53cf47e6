import DiskPartitions.FilledReads

/-!
# Assembly over devices that fail

A member whose superblock cannot be read is not set aside, so an array that is assembled over
failing devices is the one that would be assembled if they never failed.  As a device it
withholds what its members do, and a mirror tries another copy, so there the copies must agree.
-/

namespace DiskPartitions

open Slices BufferedReads Refusals WithheldReads

/-! ## Superblocks -/

theorem readSuperblockOf_below {dev sure : BlockRead} (withheld : dev.Withholds sure)
    (member : Nat) : Below (readSuperblockOf dev member) (readSuperblockOf sure member) := by
  have reads : ∀ off len, Below (dev.readMd off len) (sure.readMd off len) :=
    fun off len => (withheld.reads off len).mapError _ _
  have first : ∀ places, Below (firstV1 dev member places) (firstV1 sure member places) := by
    intro places
    induction places with
    | nil => exact .refl _
    | cons place places ih =>
        rw [firstV1, firstV1, withheld.size]
        refine .ite (fun _ => ih) fun _ => (reads _ _).bind fun buf _ => ?_
        refine (Below.refl _).bind fun found _ => ?_
        cases found with
        | none => exact ih
        | some sb => exact .refl _
  unfold readSuperblockOf
  rw [withheld.size]
  refine (first _).bind fun found _ => ?_
  cases found with
  | some sb => exact .refl _
  | none => exact .ite (fun _ => (reads _ _).bind fun buf _ => .refl _) fun _ => .refl _

/-! ## Slots -/

/-- A member on a device that withholds from another's. -/
structure Member.Withholds (m twin : Member) : Prop where
  dev : m.dev.Withholds twin.dev
  offset : m.dataOffset = twin.dataOffset
  size : m.dataSize = twin.dataSize

def SlotsWithheld (slots twins : List (Option Member)) : Prop :=
  List.Forall₂ (Option.Rel Member.Withholds) slots twins

section Slots

variable {slots twins : List (Option Member)} (withheld : SlotsWithheld slots twins)

include withheld

theorem SlotsWithheld.members :
    List.Forall₂ Member.Withholds (slots.filterMap id) (twins.filterMap id) :=
  List.rel_filterMap (fun _ _ same => same) withheld

theorem SlotsWithheld.presentCount : presentCount slots = presentCount twins := by
  induction withheld with
  | nil => rfl
  | cons same _ ih =>
      unfold DiskPartitions.presentCount at ih ⊢
      rw [List.countP_cons, List.countP_cons, ih]
      cases same <;> rfl

theorem SlotsWithheld.isSome_getD (slot : Nat) :
    (slots.getD slot none).isSome = (twins.getD slot none).isSome := by
  have related := rel_getD withheld slot
  generalize slots.getD slot none = first at related ⊢
  generalize twins.getD slot none = second at related ⊢
  cases related <;> rfl

theorem SlotsWithheld.sizes (size : Nat → Nat) :
    (slots.filterMap id).map (fun m => size m.dataSize) =
      (twins.filterMap id).map fun m => size m.dataSize := by
  have members := withheld.members
  generalize slots.filterMap id = first at members ⊢
  generalize twins.filterMap id = second at members ⊢
  induction members with
  | nil => rfl
  | cons same _ ih => rw [List.map_cons, List.map_cons, ih, same.size]

/-- A linear array is laid out by the sizes of its members. -/
theorem SlotsWithheld.linear {numbered : Option Member × Nat → Option (Nat × Member)}
    (numbers : ∀ entry, numbered entry = entry.1.map fun m => (entry.2, m)) (chunk : Nat)
    (zones : List Zone × Nat) :
    (slots.zipIdx.filterMap numbered).foldlM (appendLinear chunk) zones =
      (twins.zipIdx.filterMap numbered).foldlM (appendLinear chunk) zones := by
  generalize 0 = first
  induction withheld generalizing zones first with
  | nil => rfl
  | cons same _ ih =>
      rw [List.zipIdx_cons, List.zipIdx_cons]
      cases same with
      | none =>
          rw [List.filterMap_cons_none (numbers _), List.filterMap_cons_none (numbers _)]
          exact ih zones (first + 1)
      | @some m twin same =>
          have step : appendLinear chunk zones (first, m) =
              appendLinear chunk zones (first, twin) := by
            unfold appendLinear
            dsimp only
            rw [same.size]
          rw [List.filterMap_cons_some (numbers _), List.filterMap_cons_some (numbers _),
            List.foldlM_cons, List.foldlM_cons, step]
          exact congrArg _ (funext fun next => ih next (first + 1))

theorem SlotsWithheld.requireCopies (geo : Raid10) (d : Nat) (chunks : List Nat) :
    requireCopies geo d slots chunks = requireCopies geo d twins chunks := by
  induction chunks with
  | nil => rfl
  | cons c chunks ih =>
      have gone : ∀ slot : Nat, (slots.getD slot none).isNone = (twins.getD slot none).isNone := by
        intro slot
        rw [← Option.not_isSome, ← Option.not_isSome, withheld.isSome_getD]
      unfold DiskPartitions.requireCopies
      simp only [gone, ih]

theorem SlotsWithheld.linearGeometry (lead : MdSuperblock) :
    linearGeometry lead slots = linearGeometry lead twins := by
  unfold DiskPartitions.linearGeometry needMembers
  rw [withheld.presentCount]
  refine congrArg _ (funext fun _ => ?_)
  exact congrArg (· >>= _) (withheld.linear (fun _ => rfl) lead.chunkBytes ([], 0))

/-- The geometry is a matter of which members are there and of their sizes. -/
theorem SlotsWithheld.levelGeometry (lead : MdSuperblock) :
    levelGeometry lead slots = levelGeometry lead twins := by
  unfold DiskPartitions.levelGeometry raid1Geometry raid0Geometry raid10Geometry parityGeometry
    needMembers
  simp only [withheld.linearGeometry, withheld.presentCount, withheld.requireCopies,
    withheld.sizes fun size => size / lead.chunkBytes * lead.chunkBytes]

end Slots

/-! ## Assembly -/

/-- The same array over devices that withhold. -/
def MdArray.Withholds (array twin : MdArray) : Prop :=
  ∃ slots, SlotsWithheld slots twin.slots ∧ array = { twin with slots }

/-- A superblock read off a device that withholds. -/
structure FoundWithheld (found other : Nat × BlockRead × MdSuperblock) : Prop where
  member : found.1 = other.1
  dev : found.2.1.Withholds other.2.1
  sb : found.2.2 = other.2.2

theorem placeMember_withheld {n newest : Nat} {found other : Nat × BlockRead × MdSuperblock}
    (same : FoundWithheld found other) {slots twins : List (Option Member)}
    (withheld : SlotsWithheld slots twins) :
    BelowBy SlotsWithheld (placeMember n newest slots found) (placeMember n newest twins other) := by
  obtain ⟨member, dev, sb⟩ := found
  obtain ⟨_, sure, _⟩ := other
  obtain ⟨rfl, devices, rfl⟩ := same
  dsimp only at devices
  unfold placeMember
  dsimp only
  cases sb.role with
  | active slot =>
      refine .ite (fun _ => .ok withheld) fun _ => .ite (fun _ => .ok withheld) fun _ => ?_
      rw [withheld.isSome_getD]
      refine .bindSame _ fun _ => .ok ?_
      have member : (⟨dev, sb.dataOffset, sb.dataSize⟩ : Member).Withholds
          ⟨sure, sb.dataOffset, sb.dataSize⟩ := ⟨devices, rfl, rfl⟩
      exact forall₂_set withheld (.some member) slot
  | spare => exact .ok withheld
  | faulty => exact .ok withheld
  | journal => exact .ok withheld

/-- The lead, or why there is none, from a superblock of another array and a newest one. -/
def leadFrom (mixed newest : Option (Nat × BlockRead × MdSuperblock)) : Except MdError MdSuperblock :=
  match mixed with
  | some entry => .error (.mixedArrays entry.1)
  | none => do
      let lead ← orRefuse newest .empty
      .ok lead.2.2

theorem leadOf_eq (found : List (Nat × BlockRead × MdSuperblock)) :
    leadOf found = leadFrom
      (found.find? fun entry => entry.2.2.arrayUuid ≠
        (found.head?.map fun entry => entry.2.2.arrayUuid).getD [])
      (found.find? fun entry => entry.2.2.events =
        (found.map fun entry => entry.2.2.events).foldl max 0) := by
  unfold leadOf leadFrom
  dsimp only
  generalize found.find? _ = mixed
  cases mixed <;> rfl

section Found

variable {found others : List (Nat × BlockRead × MdSuperblock)}
  (withheld : List.Forall₂ FoundWithheld found others)

include withheld

theorem rel_find? (test : MdSuperblock → Bool) :
    Option.Rel FoundWithheld (found.find? fun entry => test entry.2.2)
      (others.find? fun entry => test entry.2.2) := by
  induction withheld with
  | nil => exact .none
  | cons same _ ih =>
      rw [List.find?_cons, List.find?_cons, same.sb]
      split
      next => exact .some same
      next => exact ih

/-- The lead is found by the superblocks. -/
theorem leadOf_withheld : leadOf found = leadOf others := by
  have head : (found.head?.map fun entry => entry.2.2.arrayUuid) =
      others.head?.map fun entry => entry.2.2.arrayUuid := by
    cases withheld with
    | nil => rfl
    | cons same _ => exact congrArg some (congrArg MdSuperblock.arrayUuid same.sb)
  have events : (found.map fun entry => entry.2.2.events) =
      others.map fun entry => entry.2.2.events := by
    clear head
    induction withheld with
    | nil => rfl
    | cons same _ ih => rw [List.map_cons, List.map_cons, ih, same.sb]
  have mixed := rel_find? withheld fun sb =>
    sb.arrayUuid ≠ (others.head?.map fun entry => entry.2.2.arrayUuid).getD []
  have newest := rel_find? withheld fun sb =>
    sb.events = (others.map fun entry => entry.2.2.events).foldl max 0
  rw [leadOf_eq, leadOf_eq, head, events]
  generalize found.find? _ = first at mixed ⊢
  generalize others.find? _ = second at mixed ⊢
  cases mixed with
  | some same => exact congrArg (fun member => Except.error (MdError.mixedArrays member)) same.member
  | none =>
      generalize found.find? _ = first at newest ⊢
      generalize others.find? _ = second at newest ⊢
      cases newest with
      | none => rfl
      | some same => exact congrArg Except.ok same.sb

end Found

theorem assembleLed_withheld {found others : List (Nat × BlockRead × MdSuperblock)}
    (withheld : List.Forall₂ FoundWithheld found others) (lead : MdSuperblock) :
    BelowBy MdArray.Withholds (assembleLed found lead) (assembleLed others lead) := by
  unfold assembleLed
  refine .bindSame _ fun _ => .bindSame _ fun _ => ?_
  have empty : SlotsWithheld (List.replicate lead.raidDisks none)
      (List.replicate lead.raidDisks none) := by
    induction lead.raidDisks with
    | zero => exact .nil
    | succ n ih => exact .cons .none ih
  refine (BelowBy.foldlM withheld (fun _ _ same _ _ => placeMember_withheld same) empty).bind ?_
  intro slots twins same
  rw [same.levelGeometry]
  refine .bindSame _ fun geometry => ?_
  have short : (∃ m ∈ slots.filterMap id,
      m.dev.sizeBytes.toNat < m.dataOffset + memberSpan lead geometry.size) ↔
        ∃ m ∈ twins.filterMap id,
          m.dev.sizeBytes.toNat < m.dataOffset + memberSpan lead geometry.size := by
    constructor
    · rintro ⟨m, listed, short⟩
      obtain ⟨twin, there, own⟩ := exists_of_mem_left same.members listed
      rw [own.dev.size, own.offset] at short
      exact ⟨twin, there, short⟩
    · rintro ⟨twin, listed, short⟩
      obtain ⟨m, there, own⟩ := exists_of_mem_right same.members listed
      rw [← own.dev.size, ← own.offset] at short
      exact ⟨m, there, short⟩
  simp only [short]
  exact .bindSame _ fun _ => .ok ⟨slots, same, rfl⟩

theorem assemble_withheld {devices sure : List BlockRead}
    (withheld : List.Forall₂ BlockRead.Withholds devices sure) :
    BelowBy MdArray.Withholds (assemble devices) (assemble sure) := by
  have none : devices = [] ↔ sure = [] := by
    rw [← List.length_eq_zero_iff, withheld.length_eq, List.length_eq_zero_iff]
  unfold assemble
  simp only [none]
  refine .bindSame _ fun _ => ?_
  have members : BelowBy (List.Forall₂ FoundWithheld) (readMembers devices) (readMembers sure) := by
    refine BelowBy.mapM (forall₂_zipIdx withheld 0) ?_
    rintro ⟨dev, member⟩ ⟨twin, _⟩ ⟨own, rfl⟩
    refine (BelowBy.of_below (readSuperblockOf_below own member)).bind ?_
    rintro sb _ rfl
    refine .bindSame _ fun sb => .ok ⟨rfl, own, rfl⟩
  refine members.bind fun found others same => ?_
  rw [assembleFound_eq, assembleFound_eq, leadOf_withheld same]
  exact .bindSame _ (assembleLed_withheld same)
/-! ## Reads -/

namespace MdArray

/-- All the copies a mirror or a row of copies may ask give the same of what is in the array. -/
structure CopiesAgree (array : MdArray) : Prop where
  legs : array.level = levelRaid1 → ∀ first ∈ array.slots.filterMap id,
    ∀ second ∈ array.slots.filterMap id, ∀ offset len, offset + len ≤ array.size →
    ∀ bytes again,
      first.dev.readAt (first.dataOffset + offset) len = .ok bytes →
      second.dev.readAt (second.dataOffset + offset) len = .ok again → bytes = again
  copies : ∀ geo, array.raid10 = some geo → ∀ k within len,
    k * array.chunk + within + len ≤ array.size →
    ∀ first ∈ geo.primary array.slots.length k :: (geo.copies array.slots.length k).drop 1,
    ∀ second ∈ geo.primary array.slots.length k :: (geo.copies array.slots.length k).drop 1,
    ∀ bytes again,
      array.readMember first.1 (first.2 * array.chunk + within) len = .ok (some bytes) →
      array.readMember second.1 (second.2 * array.chunk + within) len = .ok (some again) →
        bytes = again

section Reads

variable {twin : MdArray} {slots : List (Option Member)} (withheld : SlotsWithheld slots twin.slots)

include withheld

theorem readMember_below (slot off len : Nat) :
    Below ({ twin with slots }.readMember slot off len) (twin.readMember slot off len) := by
  have related := rel_getD withheld slot
  unfold readMember
  dsimp only
  generalize slots.getD slot none = first at related ⊢
  generalize twin.slots.getD slot none = second at related ⊢
  cases related with
  | none => exact .refl _
  | some own =>
      dsimp only
      rw [own.offset]
      exact (own.dev.reads _ len).bind fun bytes _ => .refl _

theorem readZoned_below (pos left : Nat) :
    Below ({ twin with slots }.readZoned pos left) (twin.readZoned pos left) := by
  have present : ∀ slot off len, Below ({ twin with slots }.readPresent slot off len)
      (twin.readPresent slot off len) := by
    intro slot off len
    unfold readPresent
    refine (readMember_below withheld slot off len).bind fun found _ => ?_
    exact .refl _
  unfold readZoned
  dsimp only
  split
  next => exact .refl _
  next => exact .ite (fun _ => present _ _ _) fun _ => present _ _ _

theorem readPiece_below (agrees : twin.CopiesAgree) {pos left : Nat}
    (inside : pos + left ≤ twin.size) :
    Below ({ twin with slots }.readPiece pos left) (twin.readPiece pos left) := by
  have counted : slots.length = twin.slots.length := withheld.length_eq
  have member := readMember_below withheld
  have striping : { twin with slots }.striping = twin.striping := by
    unfold striping
    rw [counted]
  unfold readPiece
  dsimp only
  rw [striping]
  cases copied : twin.raid10 with
  | none => exact readChunk_below member copied _ _ _
  | some geo =>
      have own : twin.striping.raid10 = some geo := copied
      unfold readChunk
      rw [own]
      intro bytes answered
      obtain ⟨place, listed, found⟩ := exists_of_readCopies answered
      have sure := member _ _ _ _ found
      obtain ⟨again, answers⟩ := readCopies_answers ⟨place, listed, bytes, sure⟩ none
      obtain ⟨first, also, other⟩ := exists_of_readCopies answers
      have here := Nat.div_add_mod' pos twin.chunk
      have same := agrees.copies geo copied _ _ _ (by omega) first also place listed _ _ other sure
      dsimp only
      rw [answers, same]

theorem readRaid1_below (level : twin.level = levelRaid1) (agrees : twin.CopiesAgree)
    {offset len : Nat} (inside : offset + len ≤ twin.size) :
    Below ({ twin with slots }.readRaid1 offset len) (twin.readRaid1 offset len) := by
  intro bytes answered
  obtain ⟨m, listed, own⟩ := exists_of_readLegs answered
  obtain ⟨leg, there, same⟩ := exists_of_mem_left withheld.members listed
  rw [same.offset] at own
  have sure := same.dev.reads _ len bytes own
  obtain ⟨again, answers⟩ := readLegs_answers ⟨leg, there, bytes, sure⟩ none
  obtain ⟨first, also, found⟩ := exists_of_readLegs answers
  unfold readRaid1
  rw [answers, agrees.legs level first also leg there _ _ inside _ _ found sure]

/-- An array whose copies agree answers nothing but what it would over devices that do not
fail. -/
theorem readAt_below (assembled : Assembled { twin with slots }) (agrees : twin.CopiesAgree)
    (offset len : Nat) :
    Below ({ twin with slots }.readAt offset len) (twin.readAt offset len) := by
  have chunked := chunk_pos_of_assembled assembled
  unfold readAt
  dsimp only
  refine .ite (fun _ => .refl _) fun outside => ?_
  have inside : offset + len ≤ twin.size := Nat.le_of_not_lt outside
  refine .ite (fun level => readRaid1_below withheld level agrees inside) fun mirror => ?_
  refine .ite (fun _ => ?_) fun zoned => ?_
  · exact readPieces_below (fun pos left => readZoned_below withheld pos left) len offset len
  · refine readPieces_below_before ?_ (fun pos left => readPiece_below withheld agrees) inside
    intro position left items some_left answered
    exact (length_readPiece (chunked mirror fun linear => zoned (.inr linear)) some_left answered).2

end Reads

end MdArray

/-- An array assembled over devices that withhold is a device that does. -/
theorem assembleDevice_withheld {devices sure : List BlockRead}
    (withheld : List.Forall₂ BlockRead.Withholds devices sure)
    (agree : ∀ array, assemble sure = .ok array → array.CopiesAgree) :
    BelowBy BlockRead.Withholds (assembleDevice devices) (assembleDevice sure) := by
  intro dev opened
  obtain ⟨array, done, rfl⟩ := assembleDevice_eq_ok opened
  obtain ⟨twin, again, slots, same, rfl⟩ := assemble_withheld withheld array done
  exact ⟨_, assembleDevice_of_assemble again, rfl,
    MdArray.readAt_below same (assembled_of_assemble done) (agree twin again)⟩

/-- A volume that opens over devices that withhold, but not the newest metadata, is a device that
does. -/
theorem openDevice_withheld {devices sure : List BlockRead} {name : String}
    (withheld : List.Forall₂ BlockRead.Withholds devices sure)
    (newest : Below (readVolumeGroup devices) (readVolumeGroup sure))
    (agree : ∀ mapper, Mapper.ofDevices sure = .ok mapper → mapper.MirrorsAgree) :
    BelowBy BlockRead.Withholds (openDevice devices name) (openDevice sure name) := by
  intro dev made
  obtain ⟨volume, opened, rfl⟩ := openDevice_eq_ok made
  obtain ⟨-, mapper, ofDevices, -, -, -⟩ := LogicalVolume.openVolume_eq_ok opened
  unfold Mapper.ofDevices at ofDevices
  obtain ⟨vg, group, ofDevices⟩ := bind_eq_ok.mp ofDevices
  obtain ⟨uuids, labels, ofDevices⟩ := bind_eq_ok.mp ofDevices
  have found : Mapper.ofDevices sure = .ok { vg, uuidToDev := uuids, devices := sure } := by
    unfold Mapper.ofDevices
    rw [newest vg group, ok_bind, readUuids_below withheld uuids labels, ok_bind]
  obtain ⟨other, again, -, size, reads⟩ :=
    openVolume_withheld withheld found (agree _ found) group opened
  refine ⟨_, openDevice_of_open again, ?_, reads⟩
  exact congrArg UInt64.ofNat size.symm

end DiskPartitions
