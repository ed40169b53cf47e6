import DiskPartitions.AssembledImages

/-!
# Reading the images of a segment

A read that lies in a RAID or mirror segment and one of the array of its images take the same
steps: chunk by chunk they choose the same members, and at the same places of them.
-/

namespace DiskPartitions

open Refusals BufferedReads

/-! ## Chunks -/

section Chunks

variable {first second : ReadMember} {chunk within len off : Nat}

/-- Copies are read alike from members that are alike where the copies are. -/
theorem readCopies_congr {gone : BlockError} {places : List (Nat × Nat)}
    (same : ∀ place ∈ places, first place.1 (place.2 * chunk + within) len =
      second place.1 (place.2 * chunk + within) len) (last : Option BlockError) :
    readCopies first chunk within len gone places last =
      readCopies second chunk within len gone places last := by
  induction places generalizing last with
  | nil => rfl
  | cons place rest ih =>
      obtain ⟨slot, row⟩ := place
      have later := fun failed => ih (fun other listed => same other (by simp [listed])) failed
      rw [readCopies, readCopies, same (slot, row) List.mem_cons_self]
      rcases second slot (row * chunk + within) len with error | _ | bytes
      · exact later (some error)
      · exact later last
      · rfl

variable (same : ∀ slot, first slot off len = second slot off len)

include same

theorem xorRow_congr (dd : Nat) (qd : Option Nat) (slots : List Nat) (buf : List UInt8) :
    xorRow first dd qd off len slots buf = xorRow second dd qd off len slots buf := by
  induction slots generalizing buf with
  | nil => rfl
  | cons slot rest ih =>
      rw [xorRow, xorRow, same]
      split
      next => exact ih buf
      next =>
        congr 1
        funext found
        cases found with
        | none => rfl
        | some tmp => exact ih _

theorem rebuildRaid6_congr (s : Striping) (stripe x : Nat) :
    rebuildRaid6 s first stripe x off len = rebuildRaid6 s second stripe x off len := by
  have take : Syndromes.take first s.layout s.members stripe off len =
      Syndromes.take second s.layout s.members stripe off len := by
    funext row i
    unfold Syndromes.take
    dsimp only
    rw [same]
  unfold rebuildRaid6
  dsimp only
  rw [same, same, take]

omit same in
/-- The members of a row are all read at one offset. -/
theorem readChunk_congr {s : Striping} (rows : s.raid10 = none) {k : Nat}
    (same : ∀ slot, first slot (k / (s.members - parityCount s.level) * s.chunk + within) len =
      second slot (k / (s.members - parityCount s.level) * s.chunk + within) len) :
    readChunk s first k within len = readChunk s second k within len := by
  unfold parityCount at same
  unfold readChunk
  rw [rows]
  dsimp only
  rw [same]
  congr 1
  funext found
  cases found with
  | some bytes => rfl
  | none =>
      dsimp only
      rw [rebuildRaid6_congr same, xorRow_congr same]

end Chunks

/-! ## Pieces -/

section Pieces

variable {V : Type} {raid : RaidMap V} {read : V → Nat → Nat → Except BlockError (List UInt8)}
  {component : Nat} {slots : List (Option Member)} (lead : MdSuperblock)
  (matched : raid.Matches read component slots) (below : raid.dataOffset + component < 2 ^ 64)

include matched below

/-- A member is read where its image is. -/
theorem RaidMap.Matches.readMember_eq {off len : Nat} (inside : off + len ≤ component)
    (slot : Nat) :
    raid.readMember read slot off len =
      (raid.arrayOf component slots lead).readMember slot off len := by
  have related := matched.getD slot
  unfold RaidMap.readMember MdArray.readMember
  have arranged : (raid.arrayOf component slots lead).slots = slots := rfl
  rw [arranged]
  generalize raid.images.getD slot none = image at related ⊢
  generalize slots.getD slot none = held at related ⊢
  cases related with
  | none => rfl
  | some holds =>
      dsimp only
      rw [Nat.mod_eq_of_lt (by omega), holds.reads off len inside]

/-- A chunk of rows with parity. -/
theorem RaidMap.Matches.readChunk_of_rows (rows : raid.raid10 = none) {k within len : Nat}
    (inside : within + len ≤ raid.chunk)
    (held : k < component / raid.chunk * (raid.images.length - parityCount raid.level)) :
    readChunk raid.striping (raid.readMember read) k within len =
      readChunk (raid.arrayOf component slots lead).striping
        (raid.arrayOf component slots lead).readMember k within len := by
  have members : slots.length = raid.images.length := matched.length_eq.symm
  have row : k / (raid.images.length - parityCount raid.level) < component / raid.chunk :=
    Nat.div_lt_of_lt_mul (Nat.mul_comm _ _ ▸ held)
  have room : k / (raid.images.length - parityCount raid.level) * raid.chunk + within + len ≤
      component := by
    calc _ ≤ k / (raid.images.length - parityCount raid.level) * raid.chunk + raid.chunk := by omega
      _ = (k / (raid.images.length - parityCount raid.level) + 1) * raid.chunk :=
        (Nat.succ_mul _ _).symm
      _ ≤ component / raid.chunk * raid.chunk := Nat.mul_le_mul_right _ row
      _ ≤ component := Nat.div_mul_le_self _ _
  have own : (raid.arrayOf component slots lead).striping = raid.striping := by
    unfold MdArray.striping RaidMap.striping RaidMap.arrayOf RaidMap.geometry
    rw [members, rows]
    rfl
  rw [own]
  exact readChunk_congr rows (matched.readMember_eq lead below room)

/-- A chunk of near copies. -/
theorem RaidMap.Matches.readChunk_of_copies {near : Nat} (copies : raid.raid10 = some (.ofNear near))
    (some_near : near ≠ 0) (enough : near ≤ raid.images.length) {k within len : Nat}
    (inside : within + len ≤ raid.chunk)
    (held : k < component / raid.chunk * raid.images.length / near) :
    readChunk raid.striping (raid.readMember read) k within len =
      readChunk (raid.arrayOf component slots lead).striping
        (raid.arrayOf component slots lead).readMember k within len := by
  have members : slots.length = raid.images.length := matched.length_eq.symm
  have geo : (raid.arrayOf component slots lead).raid10 =
      some ⟨near, 1, false, component / raid.chunk⟩ := by
    unfold RaidMap.arrayOf RaidMap.geometry
    rw [copies]
    rfl
  have fits : Raid10.Fits ⟨near, 1, false, component / raid.chunk⟩ raid.images.length
      (component / raid.chunk) (component / raid.chunk * raid.images.length / near) := by
    refine ⟨by omega, Nat.pos_of_ne_zero some_near, Nat.one_pos, (Nat.div_one _).symm, ?_⟩
    rw [Nat.div_one]
    exact Nat.div_mul_le_self _ _
  obtain ⟨others, all⟩ := Raid10.copies_eq_cons fits.near fits.far k
  have same : ∀ place ∈ Raid10.copies ⟨near, 1, false, component / raid.chunk⟩
      raid.images.length k,
      raid.readMember read place.1 (place.2 * raid.chunk + within) len =
        (raid.arrayOf component slots lead).readMember place.1
          (place.2 * raid.chunk + within) len := by
    intro place listed
    obtain ⟨i, first, j, last, rfl⟩ := Raid10.mem_copies.mp listed
    have row := fits.copyRow_lt held first last
    refine matched.readMember_eq lead below ?_ _
    calc _ ≤ _ * raid.chunk + raid.chunk := by
          rw [Nat.add_assoc]
          exact Nat.add_le_add_left inside _
      _ = (_ + 1) * raid.chunk := (Nat.succ_mul _ _).symm
      _ ≤ component / raid.chunk * raid.chunk := Nat.mul_le_mul_right _ row
      _ ≤ component := Nat.div_mul_le_self _ _
  unfold readChunk MdArray.striping RaidMap.striping
  dsimp only
  rw [geo, copies]
  dsimp only
  change readCopies _ _ _ _ _ (Raid10.primary ⟨near, 1, false, component / raid.chunk⟩
    raid.images.length k :: _) none = _
  rw [← Raid10.copies_near near (component / raid.chunk), all, List.drop_one, List.tail_cons]
  change _ = readCopies _ raid.chunk _ _ _ (Raid10.primary _ slots.length k ::
    (Raid10.copies _ slots.length k).drop 1) none
  rw [members, all, List.drop_one, List.tail_cons]
  rw [all] at same
  exact readCopies_congr same none

/-- A piece of a segment with chunks is the piece of the array at the same place. -/
theorem RaidMap.Matches.readPiece_eq (shaped : raid.Shaped) (other : raid.level ≠ levelRaid1)
    {position left : Nat} (some_left : 0 < left)
    (inside : position + left ≤ raid.capacity component) :
    raid.readPiece read position left =
      (raid.arrayOf component slots lead).readPiece position left := by
  unfold RaidMap.readPiece MdArray.readPiece
  rw [if_neg other]
  change readChunk _ _ _ _ _ = readChunk _ _ (position / raid.chunk) (position % raid.chunk)
    (min (raid.chunk - position % raid.chunk) left)
  unfold RaidMap.capacity at inside
  rw [if_neg other] at inside
  have piece : raid.chunk ≠ 0 → position % raid.chunk +
      min (raid.chunk - position % raid.chunk) left ≤ raid.chunk := by
    intro some_chunk
    have := Nat.mod_lt position (Nat.pos_of_ne_zero some_chunk)
    omega
  cases shaped with
  | mirrored level legs => exact absurd level other
  | rows level rows several some_chunk sectors =>
      rw [rows] at inside
      dsimp only at inside
      refine matched.readChunk_of_rows lead below rows (piece some_chunk) ?_
      refine Nat.div_lt_of_lt_mul ?_
      calc position < _ := Nat.lt_of_lt_of_le (Nat.lt_add_of_pos_right some_left) inside
        _ = _ := by rw [Nat.mul_comm (component / raid.chunk), Nat.mul_assoc]
  | copied near level copies layout some_near small enough some_chunk sectors =>
      rw [copies] at inside
      dsimp only [Raid10.ofNear] at inside
      refine matched.readChunk_of_copies lead below copies some_near enough (piece some_chunk) ?_
      refine Nat.div_lt_of_lt_mul ?_
      calc position < _ := Nat.lt_of_lt_of_le (Nat.lt_add_of_pos_right some_left) inside
        _ = _ := Nat.mul_comm _ _

omit matched in
/-- The legs of a mirror are tried in the order of the images. -/
theorem RaidMap.readImages_eq {images : List (Option V)}
    (paired : List.Forall₂ (Option.Rel (raid.HoldsImage read component)) images slots)
    {within len : Nat} (inside : within + len ≤ component) {last : Option BlockError}
    (tried : last ≠ none ∨ ∃ image, some image ∈ images) :
    readImages read (raid.dataOffset + within) len images last =
      MdArray.readLegs within len (slots.filterMap id) last := by
  induction paired generalizing last with
  | nil =>
      rcases tried with failed | ⟨_, listed⟩
      · obtain ⟨error, rfl⟩ := Option.ne_none_iff_exists'.mp failed
        rfl
      · cases listed
  | @cons image held images slots related _ ih =>
      cases related with
      | none =>
          rw [readImages, List.filterMap_cons_none rfl]
          refine ih (tried.imp_right ?_)
          rintro ⟨image, listed⟩
          exact ⟨image, List.mem_of_ne_of_mem (by simp) listed⟩
      | @some image m holds =>
          rw [readImages, @List.filterMap_cons_some _ _ id _ _ _ rfl, MdArray.readLegs,
            Nat.mod_eq_of_lt (by omega), holds.reads within len inside]
          cases read image (raid.dataOffset + within) len with
          | ok bytes => rfl
          | error error => exact ih (.inl (by simp))

end Pieces

/-! ## Segments -/

/-- The run serves every position of a read. -/
def Serves {V : Type} (runs : List (Run V)) (run : Run V) (offset len : Nat) : Prop :=
  ∀ position, offset ≤ position → position < offset + len → runAt runs position = some run

/-- A round of a read that the run serves throughout is read of the run alone. -/
theorem readRunPiece_of_serves {V : Type} {read : V → Nat → Nat → Except BlockError (List UInt8)}
    {devices : List BlockRead} {runs : List (Run V)} {run : Run V} {position left : Nat}
    (serves : Serves runs run position left) (some_left : 0 < left) :
    readRunPiece read devices runs position left =
      readMap read devices run.map (position - run.start) left := by
  have first := serves position (Nat.le_refl _) (by omega)
  have last := serves (position + left - 1) (by omega) (by omega)
  have held := List.find?_some last
  rw [decide_eq_true_eq] at held
  have small := Nat.mod_lt (run.start + run.len) (show 0 < 2 ^ 64 by decide)
  unfold runAt at first
  unfold readRunPiece
  dsimp only
  rw [Nat.mod_eq_of_lt (by omega), first]
  dsimp only
  rw [Nat.min_eq_right (by omega)]

theorem MdArray.length_readLegs {offset len : Nat} {legs : List Member} {last : Option BlockError}
    {bytes : List UInt8} (read : readLegs offset len legs last = .ok bytes) :
    bytes.length = len := by
  induction legs generalizing last with
  | nil => cases read
  | cons m legs ih =>
      rw [readLegs] at read
      split at read
      next got =>
        cases read
        exact m.dev.length_readAt got
      next => exact ih read

/-- A read of nothing succeeds on the first image. -/
theorem readImages_empty {V : Type} {read : V → Nat → Nat → Except BlockError (List UInt8)}
    (empty : ∀ image place, read image place 0 = .ok []) (place : Nat) {images : List (Option V)}
    (present : ∃ image, some image ∈ images) (last : Option BlockError) :
    readImages read place 0 images last = .ok [] := by
  induction images generalizing last with
  | nil =>
      obtain ⟨_, listed⟩ := present
      cases listed
  | cons image images ih =>
      cases image with
      | none =>
          rw [readImages]
          refine ih ?_ last
          obtain ⟨image, listed⟩ := present
          exact ⟨image, List.mem_of_ne_of_mem (by simp) listed⟩
      | some image => rw [readImages, empty]

@[simp]
theorem RaidMap.size_arrayOf {V : Type} (raid : RaidMap V) (component : Nat)
    (slots : List (Option Member)) (lead : MdSuperblock) :
    (raid.arrayOf component slots lead).size = raid.capacity component := rfl

@[simp]
theorem RaidMap.level_arrayOf {V : Type} (raid : RaidMap V) (component : Nat)
    (slots : List (Option Member)) (lead : MdSuperblock) :
    (raid.arrayOf component slots lead).level = raid.level := rfl

section Whole

variable {V : Type} {raid : RaidMap V} {read : V → Nat → Nat → Except BlockError (List UInt8)}
  {component : Nat} {slots : List (Option Member)} {devices : List BlockRead} {runs : List (Run V)}
  {run : Run V} {within len : Nat} (lead : MdSuperblock)
  (matched : raid.Matches read component slots) (below : raid.dataOffset + component < 2 ^ 64)
  (own : run.map = .raid raid) (serves : Serves runs run (run.start + within) len)
  (inside : within + len ≤ raid.capacity component)

include matched below own serves inside

/-- A mirror is read like the first member that can be read. -/
theorem RaidMap.Matches.readRuns_of_legs (level : raid.level = levelRaid1)
    (present : ∃ image, some image ∈ raid.images)
    (empty : ∀ image place, read image place 0 = .ok []) :
    readRuns read devices runs (run.start + within) len =
      (raid.arrayOf component slots lead).readAt within len := by
  have room : within + len ≤ component := by
    unfold capacity at inside
    rwa [if_pos level] at inside
  have legs : readImages read (raid.dataOffset + within) len raid.images none =
      MdArray.readLegs within len (slots.filterMap id) none :=
    readImages_eq below matched room (.inr present)
  have whole : (raid.arrayOf component slots lead).readAt within len =
      readImages read (raid.dataOffset + within) len raid.images none := by
    rw [MdArray.readAt, RaidMap.size_arrayOf, RaidMap.level_arrayOf,
      if_neg (Nat.not_lt.mpr inside), if_pos level, legs]
    rfl
  rw [whole]
  unfold readRuns readWhole
  cases len with
  | zero => rw [readPieces, readImages_empty empty _ present]
  | succ len =>
      rw [readPieces, if_neg (Nat.succ_ne_zero _), readRunPiece_of_serves serves (Nat.succ_pos _),
        own, Nat.add_sub_cancel_left]
      change (raid.readPiece read within (len + 1) >>= _) = _
      rw [RaidMap.readPiece, if_pos level]
      cases got : readImages read (raid.dataOffset + within) (len + 1) raid.images none with
      | error error => rfl
      | ok bytes =>
          have length := MdArray.length_readLegs (legs.symm.trans got)
          rw [ok_bind, length, Nat.sub_self]
          cases len with
          | zero => exact congrArg Except.ok (List.append_nil _)
          | succ len =>
              rw [readPieces, if_pos rfl]
              exact congrArg Except.ok (List.append_nil _)

/-- A segment with chunks is read piece by piece as its array is. -/
theorem RaidMap.Matches.readRuns_of_chunks (shaped : raid.Shaped) (other : raid.level ≠ levelRaid1) :
    readRuns read devices runs (run.start + within) len =
      (raid.arrayOf component slots lead).readAt within len := by
  have chunks : raid.level ≠ levelRaid0 ∧ raid.level ≠ levelLinear := by
    cases shaped with
    | mirrored level legs => exact absurd level other
    | rows level => exact (ne_of_rows level).2.2
    | copied near level =>
        rw [level]
        decide
  rw [MdArray.readAt, RaidMap.size_arrayOf, RaidMap.level_arrayOf, if_neg (Nat.not_lt.mpr inside),
    if_neg other, if_neg (not_or.mpr chunks)]
  unfold readRuns readWhole
  rw [Nat.add_comm run.start]
  refine (readPieces_moved ?_ (Nat.le_refl within) (Nat.le_refl (within + len))).symm
  intro position left some_left after before
  have part : Serves runs run (position + run.start) left :=
    fun place first last => serves place (by omega) (by omega)
  rw [readRunPiece_of_serves part some_left, own, Nat.add_sub_cancel]
  exact (matched.readPiece_eq lead below shaped other some_left (by omega)).symm

end Whole

end DiskPartitions
