import DiskPartitions.ParityReads
import DiskPartitions.PlacedLayouts

/-!
# Where the images of a RAID segment are read

The data of an image begins at an offset that its dm-raid superblock records, and a member
offset is added to it on every read of the image.  The sum is not checked, so an image is read
where it says exactly when the sum fits a word for every member offset that a read comes to.
-/

namespace DiskPartitions

open Finset Refusals TrappingWords LittleEndian Slices

/-! ## Reads that check the sum -/

section Reads

variable {V : Type} (read : V → Nat → Nat → Except BlockError (List UInt8))

/-- Reads of a sub-volume, which are not looked into. -/
def settled (volume : V) (offset len : Nat) : Trapping BlockError (List UInt8) :=
  exact (read volume offset len)

/-- A member is read at a sum that fits a word. -/
def RaidMap.readMemberChecked (raid : RaidMap V) : ReadMemberTrapping := fun slot off len =>
  match raid.images.getD slot none with
  | some image => do
      let place ← word (fit (raid.dataOffset + off))
      let bytes ← exact (read image place len)
      exact (.ok (some bytes))
  | none => exact (.ok none)

def readImagesChecked (sum want : Nat) :
    List (Option V) → Option BlockError → Trapping BlockError (List UInt8)
  | [], last => exact (.error (last.getD (.custom "no image of the mirror is present")))
  | none :: rest, last => readImagesChecked sum want rest last
  | some image :: rest, _ => do
      let place ← word (fit sum)
      settle (exact (read image place want)) fun
        | .ok bytes => exact (.ok bytes)
        | .error error => readImagesChecked sum want rest (some error)

def RaidMap.readPieceChecked (raid : RaidMap V) (within want : Nat) :
    Trapping BlockError (List UInt8) :=
  if raid.level = levelRaid1 then
    readImagesChecked read (raid.dataOffset + within) want raid.images none
  else
    let inner := within % raid.chunk
    readChunkTrapping raid.striping (raid.readMemberChecked read) (within / raid.chunk) inner
      (min (raid.chunk - inner) want)

def readMapChecked (devices : List BlockRead) (map : RunMap V) (within want : Nat) :
    Trapping BlockError (List UInt8) :=
  match map with
  | .raid raid => raid.readPieceChecked read within want
  | other => readMapTrapping (settled read) devices other within want

def readRunPieceChecked (devices : List BlockRead) (runs : List (Run V)) (position left : Nat) :
    Trapping BlockError (List UInt8) :=
  let pos := position % 2 ^ 64
  match runs.find? fun r => r.start ≤ pos ∧ pos < (r.start + r.len) % 2 ^ 64 with
  | none =>
      exact (.error (.outOfBounds pos left
        ((runs.getLast?.map fun r => (r.start + r.len) % 2 ^ 64).getD 0)))
  | some run =>
      readMapChecked read devices run.map (pos - run.start)
        (min ((run.start + run.len) % 2 ^ 64 - pos) left)

def readRunsChecked (devices : List BlockRead) (runs : List (Run V)) (offset len : Nat) :
    Trapping BlockError (List UInt8) :=
  readPiecesTrapping (readRunPieceChecked read devices runs) len offset len

/-! ## The sums that fit -/

/-- The sum fits for every copy that is tried, up to the first that can be read. -/
def RaidMap.CopiesFit (raid : RaidMap V) (within len : Nat) : List (Nat × Nat) → Prop
  | [] => True
  | (slot, row) :: rest =>
      ((raid.images.getD slot none).isSome →
        raid.dataOffset + (row * raid.chunk + within) < 2 ^ 64) ∧
      ((∀ bytes, raid.readMember read slot (row * raid.chunk + within) len ≠ .ok (some bytes)) →
        CopiesFit raid within len rest)

/-- The offset in the members of a byte of chunk `k` at level 5 or 6. -/
def RaidMap.rowOffset (raid : RaidMap V) (k inner : Nat) : Nat :=
  k / (raid.images.length - if raid.level = levelRaid6 then 2 else 1) * raid.chunk + inner

/-- The data offset and the member offset of a piece have a sum that fits a word: at level 1
the member offset is the byte's own, at level 10 it is that of every copy that is tried, and a
row without a place is not read at all. -/
def RaidMap.OffsetsFit (raid : RaidMap V) (within want : Nat) : Prop :=
  if raid.level = levelRaid1 then raid.dataOffset + within < 2 ^ 64
  else
    match raid.raid10 with
    | some geo =>
        let k := within / raid.chunk
        let inner := within % raid.chunk
        raid.CopiesFit read inner (min (raid.chunk - inner) want)
          (geo.primary raid.images.length k :: (geo.copies raid.images.length k).drop 1)
    | none =>
        LayoutPlaced raid.level raid.layout →
          raid.dataOffset + raid.rowOffset (within / raid.chunk) (within % raid.chunk) < 2 ^ 64

end Reads

/-- A RAID segment as it is resolved: at level 1 with an image that is present, at levels 5 and
6 with at most as many missing as it has syndromes, or at level 10. -/
inductive RaidMap.Sound {V : Type} (raid : RaidMap V) : Prop
  | mirrored (level : raid.level = levelRaid1) (present : ∃ image, some image ∈ raid.images)
  | single (level : raid.level = levelRaid5) (rows : raid.raid10 = none)
      (several : 1 < raid.images.length) (missing : raid.images.countP Option.isNone ≤ 1)
  | double (level : raid.level = levelRaid6) (rows : raid.raid10 = none)
      (several : 2 < raid.images.length) (missing : raid.images.countP Option.isNone ≤ 2)
  | copied (level : raid.level = levelRaid10) (geo : Raid10) (copies : raid.raid10 = some geo)

/-! ## Members -/

section Members

variable {V : Type} {read : V → Nat → Nat → Except BlockError (List UInt8)} {raid : RaidMap V}
  {slot off len : Nat}

theorem readsExactly_settled (volume : V) : ReadsExactly (settled read) read volume :=
  fun _ _ => rfl

theorem readMemberTrapping_settled (slot off len : Nat) :
    raid.readMemberTrapping (settled read) slot off len =
      exact (raid.readMember read slot off len) :=
  exact_readMember (fun image _ => readsExactly_settled image) slot off len

/-- A missing image is not read. -/
theorem readMemberChecked_of_none (gone : raid.images.getD slot none = none) :
    raid.readMemberChecked read slot off len = exact (.ok none) := by
  unfold RaidMap.readMemberChecked
  rw [gone]

theorem readMemberChecked_of_fits (fits : raid.dataOffset + off < 2 ^ 64) :
    raid.readMemberChecked read slot off len =
      raid.readMemberTrapping (settled read) slot off len := by
  unfold RaidMap.readMemberChecked RaidMap.readMemberTrapping
  cases raid.images.getD slot none with
  | none => rfl
  | some image =>
      dsimp only
      rw [fit_bind fits, Nat.mod_eq_of_lt fits]
      rfl

theorem readMemberChecked_of_not (there : (raid.images.getD slot none).isSome)
    (large : 2 ^ 64 ≤ raid.dataOffset + off) :
    raid.readMemberChecked read slot off len = trap := by
  obtain ⟨image, found⟩ := Option.isSome_iff_exists.mp there
  unfold RaidMap.readMemberChecked
  rw [found]
  exact word_none_bind (fit_of_le large) _

/-! ## Level 1 -/

/-- The images of a mirror are all read at one sum. -/
theorem readImagesChecked_iff {images : List (Option V)} (sum want : Nat)
    (last : Option BlockError) (present : ∃ image, some image ∈ images) :
    readImagesChecked read sum want images last =
        readImagesTrapping (settled read) sum want images last ↔ sum < 2 ^ 64 := by
  constructor
  · intro same
    by_contra large
    have stops : readImagesChecked read sum want images last = trap := by
      induction images with
      | nil =>
          obtain ⟨image, member⟩ := present
          cases member
      | cons image rest ih =>
          cases image with
          | none =>
              obtain ⟨image, member⟩ := present
              have later : some image ∈ rest := by simpa using member
              exact ih ⟨image, later⟩ same
          | some image => exact word_none_bind (fit_of_le (by omega)) _
    rw [stops, exact_readImages fun image _ => readsExactly_settled image] at same
    exact exact_ne_trap _ same.symm
  · intro fits
    clear present
    induction images generalizing last with
    | nil => rfl
    | cons image rest ih =>
        cases image with
        | none => exact ih last
        | some image =>
            rw [readImagesChecked, readImagesTrapping, fit_bind fits, Nat.mod_eq_of_lt fits, settled,
              settle_exact, settle_exact]
            cases read image sum want with
            | error error => exact ih _
            | ok bytes => rfl

/-! ## Level 10 -/

theorem readCopiesChecked_iff (within : Nat) (gone : BlockError) (places : List (Nat × Nat))
    (last : Option BlockError) :
    readCopiesTrapping (raid.readMemberChecked read) raid.chunk within len gone places last =
        readCopiesTrapping (raid.readMemberTrapping (settled read)) raid.chunk within len gone
          places last ↔
      raid.CopiesFit read within len places := by
  induction places generalizing last with
  | nil => exact iff_of_true rfl trivial
  | cons place rest ih =>
      obtain ⟨slot, row⟩ := place
      have plain := @exact_readCopies (raid.readMemberTrapping (settled read)) _
        readMemberTrapping_settled raid.chunk within len gone ((slot, row) :: rest) last
      rw [RaidMap.CopiesFit]
      by_cases fits : (raid.images.getD slot none).isSome →
          raid.dataOffset + (row * raid.chunk + within) < 2 ^ 64
      · have same : raid.readMemberChecked read slot (row * raid.chunk + within) len =
            exact (raid.readMember read slot (row * raid.chunk + within) len) := by
          rw [← readMemberTrapping_settled]
          cases found : raid.images.getD slot none with
          | none =>
              rw [readMemberChecked_of_none found]
              unfold RaidMap.readMemberTrapping
              rw [found]
          | some image => exact readMemberChecked_of_fits (fits (by rw [found]; rfl))
        rw [readCopiesTrapping, readCopiesTrapping, same, readMemberTrapping_settled, settle_exact,
          settle_exact, and_iff_right fits]
        rcases raid.readMember read slot (row * raid.chunk + within) len with error | _ | bytes
        · exact (ih (some error)).trans ⟨fun later _ => later, fun later => later (by simp)⟩
        · exact (ih last).trans ⟨fun later _ => later, fun later => later (by simp)⟩
        · exact iff_of_true rfl fun untried => absurd rfl (untried bytes)
      · obtain ⟨there, large⟩ := Classical.not_imp.mp fits
        have stops : readCopiesTrapping (raid.readMemberChecked read) raid.chunk within len gone
            ((slot, row) :: rest) last = trap := by
          rw [readCopiesTrapping, readMemberChecked_of_not there (by omega), settle_trap]
        rw [stops, plain]
        exact iff_of_false (fun same => exact_ne_trap _ same.symm) fun both => fits both.1

end Members

/-! ## Levels 5 and 6 -/

section Rows

variable {first second : ReadMemberTrapping} {s : Striping} {k within len : Nat}

/-- The members that a row is rebuilt from are read at one offset. -/
theorem xorRowTrapping_congr {dd : Nat} {qd : Option Nat} {off : Nat}
    (same : ∀ slot, first slot off len = second slot off len) (slots : List Nat)
    (buf : List UInt8) :
    xorRowTrapping first dd qd off len slots buf = xorRowTrapping second dd qd off len slots buf := by
  induction slots generalizing buf with
  | nil => rfl
  | cons slot rest ih =>
      rw [xorRowTrapping, xorRowTrapping, same]
      split
      next => exact ih buf
      next =>
        congr 1
        funext answer
        cases answer with
        | none => rfl
        | some tmp => exact ih _

/-- Only the reads at the offset of the row matter. -/
theorem readChunkTrapping_congr (rows : s.raid10 = none)
    (same : ∀ slot,
      first slot (k / (s.members - if s.level = levelRaid6 then 2 else 1) * s.chunk + within) len =
      second slot (k / (s.members - if s.level = levelRaid6 then 2 else 1) * s.chunk + within)
        len) :
    readChunkTrapping s first k within len = readChunkTrapping s second k within len := by
  unfold readChunkTrapping
  rw [rows]
  dsimp only
  congr 1
  funext place
  rw [same]
  congr 1
  funext answer
  cases answer with
  | some bytes => rfl
  | none =>
      dsimp only
      split
      next six =>
        rw [if_pos six] at same
        unfold rebuildRaid6Trapping Syndromes.takeTrapping
        simp only [same]
      next single =>
        rw [if_neg single] at same
        exact xorRowTrapping_congr same _ _

/-- A member that cannot be got past stops the row. -/
theorem xorRowTrapping_trap {dd : Nat} {qd : Option Nat} {off : Nat} {slots : List Nat}
    (stops : ∀ slot ∈ slots, ¬ (slot = dd ∨ some slot = qd) → first slot off len = trap)
    (needed : ∃ slot ∈ slots, ¬ (slot = dd ∨ some slot = qd)) (buf : List UInt8) :
    xorRowTrapping first dd qd off len slots buf = trap := by
  induction slots with
  | nil =>
      obtain ⟨slot, member, _⟩ := needed
      cases member
  | cons slot rest ih =>
      rw [xorRowTrapping]
      split
      next skipped =>
        refine ih (fun other later => stops other (List.mem_cons_of_mem _ later)) ?_
        obtain ⟨other, member, own⟩ := needed
        rcases List.mem_cons.mp member with rfl | later
        · exact absurd skipped own
        · exact ⟨other, later, own⟩
      next own => rw [stops slot List.mem_cons_self own, trap_bind]

end Rows

section Missing

variable {V : Type} {images : List (Option V)}

/-- The slots that are missing are no more than the images that are. -/
theorem card_le_missing {slots : Finset Nat}
    (gone : ∀ slot ∈ slots, slot < images.length ∧ (images.getD slot none).isNone) :
    slots.card ≤ images.countP Option.isNone := by
  rw [← card_filter_getD images none]
  apply card_le_card
  intro slot member
  obtain ⟨inside, none⟩ := gone slot member
  exact mem_filter.mpr ⟨mem_range.mpr inside, none⟩

/-- With one image missing the others are present. -/
theorem isSome_of_missing_one (missing : images.countP Option.isNone ≤ 1) {x y : Nat}
    (xInside : x < images.length) (yInside : y < images.length) (other : y ≠ x)
    (gone : images.getD x none = none) : (images.getD y none).isSome := by
  by_contra absent
  have two : ({x, y} : Finset Nat).card ≤ images.countP Option.isNone := by
    apply card_le_missing
    intro slot member
    rcases mem_insert.mp member with rfl | last
    · exact ⟨xInside, by rw [gone]; rfl⟩
    · rw [mem_singleton.mp last]
      exact ⟨yInside, by simpa using absent⟩
  rw [card_pair (Ne.symm other)] at two
  omega

/-- With two images missing the others are present. -/
theorem isSome_of_missing_two (missing : images.countP Option.isNone ≤ 2) {x y z : Nat}
    (xInside : x < images.length) (yInside : y < images.length) (zInside : z < images.length)
    (xy : y ≠ x) (xz : z ≠ x) (yz : z ≠ y) (xGone : images.getD x none = none)
    (yGone : images.getD y none = none) : (images.getD z none).isSome := by
  by_contra absent
  have three : ({x, y, z} : Finset Nat).card ≤ images.countP Option.isNone := by
    apply card_le_missing
    intro slot member
    simp only [mem_insert, mem_singleton] at member
    rcases member with rfl | rfl | rfl
    · exact ⟨xInside, by rw [xGone]; rfl⟩
    · exact ⟨yInside, by rw [yGone]; rfl⟩
    · exact ⟨zInside, by simpa using absent⟩
  rw [card_eq_three.mpr ⟨x, y, z, Ne.symm xy, Ne.symm xz, Ne.symm yz, rfl⟩] at three
  omega

end Missing

section Stops

variable {V : Type} {read : V → Nat → Nat → Except BlockError (List UInt8)} {raid : RaidMap V}
  {k inner len : Nat}

/-- A row of level 5 whose offset does not fit is not got past. -/
theorem readChunkChecked_single (level : raid.level = levelRaid5) (rows : raid.raid10 = none)
    (several : 1 < raid.images.length) (missing : raid.images.countP Option.isNone ≤ 1)
    (placed : LayoutPlaced raid.level raid.layout)
    (large : 2 ^ 64 ≤ raid.dataOffset + raid.rowOffset k inner) :
    readChunkTrapping raid.striping (raid.readMemberChecked read) k inner len = trap := by
  have five : levelRaid5 ≠ levelRaid6 := by decide
  have notFour : levelRaid5 ≠ levelRaid4 := by decide
  rw [RaidMap.rowOffset, level, if_neg five] at large
  rw [level] at placed
  unfold readChunkTrapping RaidMap.striping
  simp only [rows, level, if_neg five, if_neg notFour]
  rw [word_bind (parityMapTrapping_of_placed placed _ _ _)]
  obtain ⟨pd, syndromes, row⟩ := parityMap_row five several raid.layout
    (k / (raid.images.length - 1))
  have inside := row.place_lt (k % (raid.images.length - 1)) (Nat.mod_lt _ (by omega))
  rw [syndromes]
  generalize (parityMap levelRaid5 raid.layout raid.images.length (k / (raid.images.length - 1))
    (k % (raid.images.length - 1))).1 = dd at inside ⊢
  cases found : raid.images.getD dd none with
  | some image => rw [readMemberChecked_of_not (by rw [found]; rfl) large, trap_bind]
  | none =>
      rw [readMemberChecked_of_none found, exact_ok_bind]
      apply xorRowTrapping_trap
      · intro slot member own
        have below := List.mem_range.mp member
        exact readMemberChecked_of_not
          (isSome_of_missing_one missing inside below (fun same => own (.inl same)) found) large
      · -- one of the first two members is not the one that is rebuilt
        by_cases first : dd = 0
        · exact ⟨1, List.mem_range.mpr several, by simp [first]⟩
        · exact ⟨0, List.mem_range.mpr (by omega), by simpa using Ne.symm first⟩

/-- A row of level 6 whose offset does not fit is not got past. -/
theorem readChunkChecked_double (level : raid.level = levelRaid6) (rows : raid.raid10 = none)
    (several : 2 < raid.images.length) (missing : raid.images.countP Option.isNone ≤ 2)
    (placed : LayoutPlaced raid.level raid.layout)
    (large : 2 ^ 64 ≤ raid.dataOffset + raid.rowOffset k inner) :
    readChunkTrapping raid.striping (raid.readMemberChecked read) k inner len = trap := by
  have notFour : levelRaid6 ≠ levelRaid4 := by decide
  rw [RaidMap.rowOffset, level, if_pos rfl] at large
  rw [level] at placed
  unfold readChunkTrapping rebuildRaid6Trapping RaidMap.striping
  simp only [rows, level, if_neg notFour, if_true]
  rw [word_bind (parityMapTrapping_of_placed placed _ _ _)]
  obtain ⟨pd, qd, syndromes, row⟩ := raid6Map_row (layoutPlaced_raid6.mp placed) several
    (k / (raid.images.length - 2))
  have chosen : k % (raid.images.length - 2) < raid.images.length - 2 := Nat.mod_lt _ (by omega)
  have inside := row.place_lt _ chosen
  have apart := row.apart _ chosen
  have pInside := row.syndrome_lt pd (by simp)
  have qInside := row.syndrome_lt qd (by simp)
  have distinct := row.nodup
  have placeOf : ∀ i, parityMap levelRaid6 raid.layout raid.images.length
      (k / (raid.images.length - 2)) i =
        ((raid6Map raid.layout raid.images.length (k / (raid.images.length - 2)) i).1, pd,
          some qd) := by
    intro i
    have pair := syndromes i
    unfold parityMap
    rw [if_pos rfl]
    generalize raid6Map raid.layout raid.images.length (k / (raid.images.length - 2)) i = found
      at pair ⊢
    obtain ⟨dd, rest⟩ := found
    cases pair
    rfl
  rw [placeOf]
  dsimp only at inside apart ⊢
  generalize (raid6Map raid.layout raid.images.length (k / (raid.images.length - 2))
    (k % (raid.images.length - 2))).1 = dd at inside apart ⊢
  simp only [List.mem_cons, List.not_mem_nil, or_false, not_or] at apart
  cases found : raid.images.getD dd none with
  | some image => rw [readMemberChecked_of_not (by rw [found]; rfl) large, trap_bind]
  | none =>
      rw [readMemberChecked_of_none found, exact_ok_bind]
      dsimp only
      rw [word_bind (parityMapTrapping_of_placed placed _ _ _), placeOf]
      dsimp only
      cases parity : raid.images.getD pd none with
      | some image => rw [readMemberChecked_of_not (by rw [parity]; rfl) large, trap_bind]
      | none =>
          have there : (raid.images.getD qd none).isSome :=
            isSome_of_missing_two missing inside pInside qInside (Ne.symm apart.1)
              (Ne.symm apart.2) (by simpa [eq_comm] using distinct) found parity
          rw [readMemberChecked_of_none parity, exact_ok_bind, Option.getD_some,
            readMemberChecked_of_not there large, trap_bind]

/-- A row with a place is got past when its offset fits. -/
theorem readChunkChecked_iff (rows : raid.raid10 = none) (notFour : raid.level ≠ levelRaid4)
    (stops : LayoutPlaced raid.level raid.layout →
      2 ^ 64 ≤ raid.dataOffset + raid.rowOffset k inner →
      readChunkTrapping raid.striping (raid.readMemberChecked read) k inner len = trap) :
    readChunkTrapping raid.striping (raid.readMemberChecked read) k inner len =
        readChunkTrapping raid.striping (raid.readMemberTrapping (settled read)) k inner len ↔
      (LayoutPlaced raid.level raid.layout →
        raid.dataOffset + raid.rowOffset k inner < 2 ^ 64) := by
  constructor
  · intro same placed
    by_contra large
    rw [stops placed (by omega), exact_readChunk readMemberTrapping_settled fun _ _ => placed] at same
    exact exact_ne_trap _ same.symm
  · intro fits
    by_cases placed : LayoutPlaced raid.level raid.layout
    · exact readChunkTrapping_congr rows fun slot => readMemberChecked_of_fits (fits placed)
    · rw [readChunkTrapping_of_not rows notFour placed, readChunkTrapping_of_not rows notFour placed]

/-- A piece of a RAID segment is read where it should be when its sum fits. -/
theorem readPieceChecked_iff (sound : raid.Sound) (within want : Nat) :
    raid.readPieceChecked read within want = raid.readPieceTrapping (settled read) within want ↔
      raid.OffsetsFit read within want := by
  unfold RaidMap.readPieceChecked RaidMap.readPieceTrapping RaidMap.OffsetsFit
  cases sound with
  | mirrored level present =>
      rw [if_pos level, if_pos level, if_pos level]
      exact readImagesChecked_iff _ _ _ present
  | single level rows several missing =>
      have other : raid.level ≠ levelRaid1 := by
        rw [level]
        decide
      rw [if_neg other, if_neg other, if_neg other, rows]
      refine readChunkChecked_iff rows (by rw [level]; decide) fun placed large => ?_
      exact readChunkChecked_single level rows several missing placed large
  | double level rows several missing =>
      have other : raid.level ≠ levelRaid1 := by
        rw [level]
        decide
      rw [if_neg other, if_neg other, if_neg other, rows]
      refine readChunkChecked_iff rows (by rw [level]; decide) fun placed large => ?_
      exact readChunkChecked_double level rows several missing placed large
  | copied level geo copies =>
      have other : raid.level ≠ levelRaid1 := by
        rw [level]
        decide
      rw [if_neg other, if_neg other, if_neg other, copies]
      dsimp only
      unfold readChunkTrapping RaidMap.striping
      rw [copies]
      exact readCopiesChecked_iff _ _ _ none

end Stops

/-! ## The segments of a volume -/

namespace Mapper

variable {V : Type} {sub : String → Except LvmError (V × Nat)}
  {read : V → Nat → Nat → Except BlockError (List UInt8)} {mapper : Mapper} {name : String}
  {seg : Segment} {map : RaidMap V}

/-- Fewer missing than there are means that one is present. -/
theorem exists_some_of_countP {images : List (Option V)}
    (missing : images.countP Option.isNone < images.length) : ∃ image, some image ∈ images := by
  by_contra absent
  have all : images.countP Option.isNone = images.length := by
    apply List.countP_eq_length.mpr
    intro image listed
    cases image with
    | none => rfl
    | some image => exact absurd ⟨image, listed⟩ absent
  omega

theorem sound_of_raid (resolved : raid sub read name seg = .ok (.raid map)) : map.Sound := by
  obtain ⟨images, sb, level, raid10, checks, same⟩ := raid_eq_ok.mp resolved
  cases same
  obtain ⟨parity, leveled, sized⟩ := checks.sized
  have enough := checks.enough
  have copied := checks.copied
  unfold survives at enough
  unfold nearCopies at copied
  rcases mdLevel_eq_ok leveled with ⟨-, rfl, rfl⟩ | ⟨-, rfl, rfl⟩ | ⟨-, rfl, rfl⟩ | ⟨-, rfl, rfl⟩
  · rw [if_pos rfl, decide_eq_true_eq] at enough
    exact .mirrored rfl (exists_some_of_countP enough)
  · rw [if_neg (by decide)] at copied enough
    cases copied
    have room := (sized (by decide)).2
    exact .single rfl rfl room (of_decide_eq_true enough)
  · rw [if_neg (by decide)] at copied enough
    cases copied
    have room := (sized (by decide)).2
    exact .double rfl rfl room (of_decide_eq_true enough)
  · rw [if_pos rfl] at copied
    obtain ⟨_, copied⟩ := refuseIf_bind_eq_ok.mp copied
    obtain ⟨_, copied⟩ := refuseIf_bind_eq_ok.mp copied
    cases copied
    exact .copied rfl _ rfl

theorem sound_of_mirror (resolved : mirror sub seg = .ok (.raid map)) : map.Sound := by
  unfold mirror requireSurvives survives at resolved
  obtain ⟨⟨images, gone⟩, imaged, resolved⟩ := bind_eq_ok.mp resolved
  obtain ⟨enough, resolved⟩ := refuseIf_bind_eq_ok.mp resolved
  cases resolved
  rw [not_not, if_pos rfl, decide_eq_true_eq] at enough
  exact .mirrored rfl (exists_some_of_countP enough)

/-- A RAID segment is resolved by its superblock or as a mirror. -/
theorem raid_or_mirror (resolved : mapSegment sub read mapper name seg = .ok (.raid map)) :
    raid sub read name seg = .ok (.raid map) ∨ mirror sub seg = .ok (.raid map) := by
  unfold mapSegment at resolved
  split at resolved
  next =>
    obtain ⟨stripes, same, _⟩ := striped_eq_ok resolved
    cases same
  next =>
    split at resolved
    next =>
      unfold thin at resolved
      obtain ⟨_, resolved⟩ := refuseIf_bind_eq_ok.mp resolved
      obtain ⟨_, resolved⟩ := refuseIf_bind_eq_ok.mp resolved
      split at resolved
      next =>
        obtain ⟨⟨tdata, tmeta⟩, _, resolved⟩ := bind_eq_ok.mp resolved
        obtain ⟨⟨metadata, _⟩, _, resolved⟩ := bind_eq_ok.mp resolved
        obtain ⟨⟨data, _⟩, _, resolved⟩ := bind_eq_ok.mp resolved
        obtain ⟨sb, _, resolved⟩ := bind_eq_ok.mp resolved
        obtain ⟨found, _, resolved⟩ := bind_eq_ok.mp resolved
        obtain ⟨root, _, resolved⟩ := bind_eq_ok.mp resolved
        cases resolved
      next => cases resolved
    next =>
      split at resolved
      next => cases resolved
      next =>
        split at resolved
        next => exact .inr resolved
        next =>
          split at resolved
          next => exact .inl resolved
          next => cases resolved

/-- A RAID segment that is resolved can be read. -/
theorem sound_of_mapSegment (resolved : mapSegment sub read mapper name seg = .ok (.raid map)) :
    map.Sound :=
  (raid_or_mirror resolved).elim sound_of_raid sound_of_mirror

theorem sound_of_mapSegments {segs : List Segment} {next : Nat} {runs : List (Run V)} {last : Nat}
    (resolved : mapSegments sub read mapper name segs next = .ok (runs, last)) :
    ∀ run ∈ runs, ∀ raid, run.map = .raid raid → raid.Sound := by
  intro run listed raid own
  obtain ⟨seg, _, resolves⟩ := exists_of_mem_right (resolves_of_mapSegments resolved) listed
  have found := resolves.map
  rw [own] at found
  exact sound_of_mapSegment found

end Mapper

/-! ## Volumes -/

/-- Rounds that agree make reads that agree. -/
theorem readPiecesTrapping_congr {ε α : Type} {first second : Nat → Nat → Trapping ε (List α)}
    {finish : Nat} (same : ∀ position left, 0 < left → position + left ≤ finish →
      first position left = second position left)
    (fuel position left : Nat) (inside : position + left ≤ finish) :
    readPiecesTrapping first fuel position left = readPiecesTrapping second fuel position left := by
  induction fuel generalizing position left with
  | zero => rfl
  | succ fuel ih =>
      rw [readPiecesTrapping, readPiecesTrapping]
      split
      next => rfl
      next some_left =>
        rw [same position left (by omega) inside]
        congr 1
        funext items
        congr 1
        -- a round that gives more than was asked for is the last
        by_cases short : items.length ≤ left
        · exact ih _ _ (by omega)
        · rw [Nat.sub_eq_zero_of_le (by omega)]
          cases fuel with
          | zero => rfl
          | succ fuel => rw [readPiecesTrapping, readPiecesTrapping, if_pos rfl, if_pos rfl]

/-- The run that serves a position. -/
def runAt {V : Type} (runs : List (Run V)) (position : Nat) : Option (Run V) :=
  runs.find? fun r => r.start ≤ position ∧ position < (r.start + r.len) % 2 ^ 64

/-- A round is read where it should be when the sum of its segment fits. -/
theorem readRunPieceChecked_iff {V : Type} {read : V → Nat → Nat → Except BlockError (List UInt8)}
    {runs : List (Run V)} (sound : ∀ run ∈ runs, ∀ raid, run.map = .raid raid → raid.Sound)
    {devices : List BlockRead} {position left : Nat} (small : position < 2 ^ 64) :
    readRunPieceChecked read devices runs position left =
        readRunPieceTrapping (settled read) devices runs position left ↔
      ∀ run raid, runAt runs position = some run → run.map = .raid raid →
        raid.OffsetsFit read (position - run.start)
          (min ((run.start + run.len) % 2 ^ 64 - position) left) := by
  unfold readRunPieceChecked readRunPieceTrapping
  simp only [Nat.mod_eq_of_lt small]
  rw [show (runs.find? fun r => decide (r.start ≤ position ∧
    position < (r.start + r.len) % 2 ^ 64)) = runAt runs position from rfl]
  cases served : runAt runs position with
  | none =>
      refine iff_of_true rfl ?_
      rintro run raid ⟨⟩
  | some run =>
      dsimp only
      cases own : run.map with
      | raid raid =>
          have listed := List.mem_of_find?_eq_some served
          refine (readPieceChecked_iff (sound run listed raid own) _ _).trans ?_
          constructor
          · rintro fits _ _ ⟨⟩ same
            rw [own] at same
            cases same
            exact fits
          · intro fits
            exact fits run raid rfl own
      | striped stripeSize stripes =>
          refine iff_of_true rfl ?_
          rintro _ raid ⟨⟩ same
          rw [own] at same
          cases same
      | thin thin =>
          refine iff_of_true rfl ?_
          rintro _ raid ⟨⟩ same
          rw [own] at same
          cases same

namespace LogicalVolume

/-- Checking the sums at which images are read changes no round of a read that lies in the
volume: no image is read at a sum that has wrapped around. -/
def ReadsUnwrapped (volume : LogicalVolume) : Prop :=
  ∀ position left, 0 < left → position + left ≤ volume.size →
    readRunPieceChecked (readVolume volume.devices 2) volume.devices volume.runs position left =
      readRunPieceTrapping (settled (readVolume volume.devices 2)) volume.devices volume.runs
        position left

/-- The sums fit in every round of a read that lies in the volume. -/
def OffsetsFit (volume : LogicalVolume) : Prop :=
  ∀ position left, 0 < left → position + left ≤ volume.size → ∀ run raid,
    runAt volume.runs position = some run → run.map = .raid raid →
    raid.OffsetsFit (readVolume volume.devices 2) (position - run.start)
      (min ((run.start + run.len) % 2 ^ 64 - position) left)

end LogicalVolume

/-! ## An offset near the end of the word -/

/-- The dm-raid superblock of a level 1 segment whose data begins 512 bytes before 2 ^ 64. -/
def farSuper : List UInt8 :=
  encode 4 dmRaidMagic ++ encode 4 dmRaidCompatV190 ++ List.replicate 40 0 ++ encode 4 1 ++
    List.replicate 44 0 ++ encode 8 (2 ^ 55 - 1) ++ List.replicate 16 0

/-- A mirror of two extents over one image of two extents, the first of which holds 0x11
throughout and the second 0x22. -/
def farOffset : WrittenPv where
  letter := 0x61
  text := textOf ([
    "vg \x7b", "id = \"vg\"", "seqno = 1", "extent_size = 1",
    "physical_volumes \x7b",
    "pv0 \x7b", "id = \"aaaaaaaa-aaaaaaaa-aaaaaaaa-aaaaaaaa\"", "pe_start = 4", "pe_count = 3", "\x7d",
    "\x7d",
    "logical_volumes \x7b",
    "lv \x7b", "segment1 \x7b", "start_extent = 0", "extent_count = 2", "type = \"raid1\"",
    "raids = [\"m\", \"a\"]", "\x7d", "\x7d"] ++ subVolume "m" 0 ++
    ["a \x7b", "segment1 \x7b", "start_extent = 0", "extent_count = 2", "type = \"striped\"",
    "stripe_count = 1", "stripes = [\"pv0\", 1]", "\x7d", "\x7d", "\x7d", "\x7d"])
  data := farSuper ++ List.replicate 392 0 ++ List.replicate 512 0x11 ++ List.replicate 512 0x22
  some_text := by decide +kernel
  text_le := by decide +kernel
  no_nul := by decide +kernel
  data_lt := by decide +kernel

def farVg : VolumeGroup :=
  let one (name : String) (extent count : Nat) : LogicalVolumeInfo :=
    ⟨name, "", [⟨0, count, "striped", 0, [⟨"pv0", extent⟩], [], [], none, none, none,
      oneStripe_sized extent⟩]⟩
  ⟨"vg", "vg", 1, 512, [⟨"pv0", "aaaaaaaaaaaaaaaaaaaaaaaaaaaaaaaa", 2048, 3⟩],
    [⟨"lv", "", [⟨0, 2, "raid1", 0, [], ["a"], ["m"], none, none, none, unstriped_sized⟩]⟩,
      one "m" 0 1, one "a" 1 2], oneSector_pos⟩

def farMapper : Mapper where
  vg := farVg
  uuidToDev := [(farOffset.label.uuid, 0)]
  devices := [farOffset.device.toBlockRead]

theorem ofDevices_farOffset :
    Mapper.ofDevices [farOffset.device.toBlockRead] = .ok farMapper := by
  have parsed : (parseMetadata (Utf8.fromUtf8Lossy farOffset.text) >>=
      VolumeGroup.fromMetadata) = .ok farVg := by
    rw [parseMetadata_ascii (by decide +kernel)]
    decide +kernel
  exact WrittenPv.ofDevices_device parsed

/-- What a read of the byte at 512 comes to, with and without the check. -/
def farRead (found : Volume 3 × Nat) : Bool :=
  let read := readVolume farMapper.devices 2
  decide (513 ≤ found.2) &&
    decide ((readVolume farMapper.devices 3 found.1 512 1).toOption = some [0x11]) &&
    (readRunPieceChecked read farMapper.devices found.1 512 1).run.isNone &&
    (readRunPieceTrapping (settled read) farMapper.devices found.1 512 1).run.isSome

theorem openVolume_farOffset :
    ∃ volume, LogicalVolume.openVolume [farOffset.device.toBlockRead] "lv" = .ok volume ∧
      volume.devices = farMapper.devices ∧ farRead (volume.runs, volume.size) = true := by
  have named : (farMapper.lv "lv").isOk = true := by decide +kernel
  have mapped : (farMapper.map 3 "lv").toOption.any farRead = true := by decide +kernel
  obtain ⟨info, found, opened, holds⟩ := exists_openVolume ofDevices_farOffset named mapped
  exact ⟨_, opened, rfl, holds⟩

theorem not_readsUnwrapped_far {volume : LogicalVolume} (devices : volume.devices = farMapper.devices)
    (read : farRead (volume.runs, volume.size) = true) : ¬ volume.ReadsUnwrapped := by
  simp only [farRead, Bool.and_eq_true, decide_eq_true_eq] at read
  obtain ⟨⟨⟨inside, _⟩, checked⟩, plain⟩ := read
  intro unwrapped
  have same := unwrapped 512 1 Nat.one_pos inside
  rw [devices] at same
  rw [same] at checked
  rw [Option.isNone_iff_eq_none.mp checked] at plain
  cases plain

end DiskPartitions
