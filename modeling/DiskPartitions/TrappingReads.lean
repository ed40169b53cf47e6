import DiskPartitions.LogicalVolumes
import DiskPartitions.TrappingWords

/-!
# Volume reads that stop at a layout without a place

The reads of a logical volume once more, with a stop where a RAID row is asked for under a
layout its map does not place: the arm of RAID6 that is not to be reached, and the one of
RAID5 that is for the parity-last layout only.  A volume of which every RAID segment has a
placed layout is read without a stop, and as it is read without the checks.
-/

namespace DiskPartitions

open LittleEndian Refusals BufferedReads TrappingWords

/-! ## Reads in pieces -/

def readPiecesTrapping {ε α : Type} (piece : Nat → Nat → Trapping ε (List α)) :
    Nat → Nat → Nat → Trapping ε (List α)
  | 0, _, _ => exact (.ok [])
  | fuel + 1, position, left =>
      if left = 0 then exact (.ok [])
      else do
        let items ← piece position left
        let rest ← readPiecesTrapping piece fuel (position + items.length) (left - items.length)
        exact (.ok (items ++ rest))

theorem exact_readPieces {ε α : Type} {piece : Nat → Nat → Trapping ε (List α)}
    {plain : Nat → Nat → Except ε (List α)}
    (each : ∀ position left, piece position left = exact (plain position left))
    (fuel position left : Nat) :
    readPiecesTrapping piece fuel position left = exact (readPieces plain fuel position left) := by
  induction fuel generalizing position left with
  | zero => rfl
  | succ fuel ih =>
      rw [readPiecesTrapping, readPieces]
      split
      next => rfl
      next =>
        refine exact_bind (each position left) fun items _ => ?_
        exact exact_bind (ih _ _) fun rest _ => rfl

/-! ## Placing a row -/

/-- The layouts that the map of a level's rows has a place for. -/
def LayoutPlaced (level : Int) (layout : Nat) : Prop :=
  if level = levelRaid6 then raid6LayoutKnown layout = true else layout ≤ layoutParityLast

instance (level : Int) (layout : Nat) : Decidable (LayoutPlaced level layout) :=
  inferInstanceAs (Decidable (if level = levelRaid6 then raid6LayoutKnown layout = true
    else layout ≤ layoutParityLast))

/-- Where a chunk lives, when the layout has a place for it. -/
def parityMapTrapping (level : Int) (layout n stripe i : Nat) : Option (Nat × Nat × Option Nat) :=
  if LayoutPlaced level layout then some (parityMap level layout n stripe i) else none

theorem parityMapTrapping_of_placed {level : Int} {layout : Nat}
    (placed : LayoutPlaced level layout) (n stripe i : Nat) :
    parityMapTrapping level layout n stripe i = some (parityMap level layout n stripe i) :=
  if_pos placed

theorem parityMapTrapping_of_not {level : Int} {layout : Nat}
    (unplaced : ¬ LayoutPlaced level layout) (n stripe i : Nat) :
    parityMapTrapping level layout n stripe i = none :=
  if_neg unplaced

theorem layoutPlaced_raid6 {layout : Nat} :
    LayoutPlaced levelRaid6 layout ↔ raid6LayoutKnown layout = true := by
  rw [LayoutPlaced, if_pos rfl]

/-! ## Reading a chunk -/

/-- Reads of a member that may stop. -/
abbrev ReadMemberTrapping := Nat → Nat → Nat → Trapping BlockError (Option (List UInt8))

def readCopiesTrapping (member : ReadMemberTrapping) (chunk within len : Nat)
    (gone : BlockError) :
    List (Nat × Nat) → Option BlockError → Trapping BlockError (List UInt8)
  | [], last => exact (.error (last.getD gone))
  | (slot, row) :: rest, last =>
      settle (member slot (row * chunk + within) len) fun
        | .ok (some bytes) => exact (.ok bytes)
        | .ok none => readCopiesTrapping member chunk within len gone rest last
        | .error error => readCopiesTrapping member chunk within len gone rest (some error)

def xorRowTrapping (member : ReadMemberTrapping) (dd : Nat) (qd : Option Nat) (off len : Nat) :
    List Nat → List UInt8 → Trapping BlockError (List UInt8)
  | [], buf => exact (.ok buf)
  | slot :: rest, buf =>
      if slot = dd ∨ some slot = qd then xorRowTrapping member dd qd off len rest buf
      else do
        match ← member slot off len with
        | none =>
            exact (.error (.custom s!"md: slot {slot} missing while reconstructing slot {dd}"))
        | some tmp => xorRowTrapping member dd qd off len rest (xorInto buf tmp)

def Syndromes.takeTrapping (member : ReadMemberTrapping) (layout n stripe off len : Nat)
    (row : Syndromes) (i : Nat) : Trapping BlockError Syndromes := do
  let place ← word (parityMapTrapping levelRaid6 layout n stripe i)
  match ← member place.1 off len with
  | none => exact (.ok { row with missing := row.missing ++ [i] })
  | some d =>
      let g := gfPow2 (qExponent layout n stripe i)
      exact (.ok { row with
        p := xorInto row.p d
        q := xorInto row.q (d.map (gfMul g)) })

/-- The exponents of the row are of a layout that its members were placed by. -/
def rebuildRaid6Trapping (s : Striping) (member : ReadMemberTrapping) (stripe x off len : Nat) :
    Trapping BlockError (List UInt8) := do
  let n := s.members
  let layout := s.layout
  let place ← word (parityMapTrapping levelRaid6 layout n stripe 0)
  let p ← member place.2.1 off len
  let q ← member (place.2.2.getD 0) off len
  let zeros := List.replicate len 0
  let row ← (List.range (n - 2)).foldlM (Syndromes.takeTrapping member layout n stripe off len)
    { p := p.getD zeros, q := q.getD zeros, missing := [] }
  exact (solveRow layout n stripe x p.isSome q.isSome row)

def readChunkTrapping (s : Striping) (member : ReadMemberTrapping) (k within len : Nat) :
    Trapping BlockError (List UInt8) :=
  let n := s.members
  match s.raid10 with
  | some geo =>
      readCopiesTrapping member s.chunk within len
        (.custom s!"md: no copy of chunk {k} is present")
        (geo.primary n k :: (geo.copies n k).drop 1) none
  | none => do
      let parity := if s.level = levelRaid6 then 2 else 1
      let data := n - parity
      let stripe := k / data
      let layout := if s.level = levelRaid4 then layoutParityLast else s.layout
      let place ← word (parityMapTrapping s.level layout n stripe (k % data))
      let off := stripe * s.chunk + within
      match ← member place.1 off len with
      | some bytes => exact (.ok bytes)
      | none =>
          if s.level = levelRaid6 then rebuildRaid6Trapping s member stripe (k % data) off len
          else
            xorRowTrapping member place.1 place.2.2 off len (List.range n) (List.replicate len 0)

section Chunks

variable {member : ReadMemberTrapping} {plain : ReadMember}
  (members : ∀ slot off len, member slot off len = exact (plain slot off len))

include members

theorem exact_readCopies (chunk within len : Nat) (gone : BlockError) (places : List (Nat × Nat))
    (last : Option BlockError) :
    readCopiesTrapping member chunk within len gone places last =
      exact (readCopies plain chunk within len gone places last) := by
  induction places generalizing last with
  | nil => rfl
  | cons place rest ih =>
      rw [readCopiesTrapping, readCopies, members, settle_exact]
      generalize plain place.1 (place.2 * chunk + within) len = answer
      rcases answer with error | (_ | bytes)
      · exact ih _
      · exact ih last
      · rfl

theorem exact_xorRow (dd : Nat) (qd : Option Nat) (off len : Nat) (slots : List Nat)
    (buf : List UInt8) :
    xorRowTrapping member dd qd off len slots buf = exact (xorRow plain dd qd off len slots buf) := by
  induction slots generalizing buf with
  | nil => rfl
  | cons slot rest ih =>
      rw [xorRowTrapping, xorRow]
      split
      next => exact ih buf
      next =>
        refine exact_bind (members slot off len) fun answer _ => ?_
        cases answer with
        | none => rfl
        | some tmp => exact ih _

theorem exact_take {layout : Nat} (known : raid6LayoutKnown layout = true)
    (n stripe off len : Nat) (row : Syndromes) (i : Nat) :
    Syndromes.takeTrapping member layout n stripe off len row i =
      exact (Syndromes.take plain layout n stripe off len row i) := by
  unfold Syndromes.takeTrapping Syndromes.take
  rw [word_bind (parityMapTrapping_of_placed (layoutPlaced_raid6.mpr known) n stripe i)]
  refine exact_bind (members _ off len) fun answer _ => ?_
  cases answer with
  | none => rfl
  | some d => rfl

theorem exact_rebuildRaid6 {s : Striping} (known : raid6LayoutKnown s.layout = true)
    (stripe x off len : Nat) :
    rebuildRaid6Trapping s member stripe x off len =
      exact (rebuildRaid6 s plain stripe x off len) := by
  unfold rebuildRaid6Trapping rebuildRaid6
  dsimp only
  rw [word_bind (parityMapTrapping_of_placed (layoutPlaced_raid6.mpr known) s.members stripe 0)]
  refine exact_bind (members _ off len) fun p _ => ?_
  refine exact_bind (members _ off len) fun q _ => ?_
  refine exact_bind ?_ fun row _ => rfl
  exact exact_foldlM (fun row i _ => exact_take members known s.members stripe off len row i) _

/-- A chunk of a striping whose layout has a place for it is read without a stop. -/
theorem exact_readChunk {s : Striping}
    (placed : s.raid10 = none → s.level ≠ levelRaid4 → LayoutPlaced s.level s.layout)
    (k within len : Nat) :
    readChunkTrapping s member k within len = exact (readChunk s plain k within len) := by
  unfold readChunkTrapping readChunk
  dsimp only
  cases copied : s.raid10 with
  | some geo => exact exact_readCopies members _ _ _ _ _ _
  | none =>
      have own : LayoutPlaced s.level
          (if s.level = levelRaid4 then layoutParityLast else s.layout) := by
        split
        next four =>
          rw [four]
          decide
        next other => exact placed copied other
      dsimp only
      rw [word_bind (parityMapTrapping_of_placed own _ _ _)]
      refine exact_bind (members _ _ len) fun answer _ => ?_
      cases answer with
      | some bytes => rfl
      | none =>
          dsimp only
          split
          next six =>
            have known : raid6LayoutKnown s.layout = true := by
              rw [← layoutPlaced_raid6, ← six]
              exact placed copied (six ▸ by decide)
            exact exact_rebuildRaid6 members known _ _ _ _
          next => exact exact_xorRow members _ _ _ _ _ _

end Chunks

/-- A chunk of a striping whose layout has no place for it is not read. -/
theorem readChunkTrapping_of_not {s : Striping} (uncopied : s.raid10 = none)
    (other : s.level ≠ levelRaid4) (unplaced : ¬ LayoutPlaced s.level s.layout)
    (member : ReadMemberTrapping) (k within len : Nat) :
    readChunkTrapping s member k within len = trap := by
  unfold readChunkTrapping
  rw [uncopied]
  dsimp only
  rw [if_neg other, word_none_bind (parityMapTrapping_of_not unplaced _ _ _)]

/-! ## Reading a volume -/

/-- Reads of the metadata sub-volume that may stop. -/
abbrev ReadBlockTrapping := Nat → Nat → Trapping BlockError (List UInt8)

def checkedBlockTrapping (read : ReadBlockTrapping) (n : Nat) (xor : UInt32) (what : String) :
    Trapping LvmError (List UInt8) := do
  exact (refuseIf (2 ^ 64 ≤ n * thinBlock) (.corrupt s!"{what}: block {n} is out of range"))
  let b ← settle (read (n * thinBlock) thinBlock) fun answer => exact (answer.mapError .block)
  let want := crc32cRegister (b.drop 4) ^^^ xor
  exact (refuseIf (field b 0 4 ≠ want.toNat)
    (.corrupt s!"{what} at metadata block {n}: checksum mismatch"))
  exact (.ok b)

def lookupFromTrapping (read : ReadBlockTrapping) (root key : Nat) :
    Nat → Nat → Trapping LvmError (Option Nat)
  | 0, _ =>
      exact (.error (.corrupt s!"thin pool btree from block {root} is deeper than {thinMaxDepth}"))
  | depth + 1, place => do
      let b ← checkedBlockTrapping read place btreeCsumXor "thin pool btree node"
      exact (refuseIf (field b 8 8 ≠ place)
        (.corrupt s!"thin pool btree node at block {place} says it is block {field b 8 8}"))
      let flags := field b 4 4
      let nr := field b 16 4
      let max := field b 20 4
      let valueSize := field b 24 4
      exact (refuseIf (valueSize ≠ 8 ∨ max < nr ∨ thinBlock < nodeHeader + max * (8 + valueSize))
        (.corrupt
          s!"thin pool btree node at block {place}: {nr} of {max} entries of {valueSize} bytes"))
      let keys := nodeKeys b nr
      match partitionPoint (fun k => decide (k ≤ key)) keys with
      | 0 => exact (.ok none)
      | i + 1 =>
          if flags = internalNode then lookupFromTrapping read root key depth (nodeValue b max i)
          else if flags = leafNode then
            exact (.ok (if keys.getD i 0 = key then some (nodeValue b max i) else none))
          else
            exact (.error (.corrupt s!"thin pool btree node at block {place}: flags {hex flags}"))

def dataBlockTrapping (read : ReadBlockTrapping) (root vb : Nat) :
    Trapping LvmError (Option Nat) := do
  let found ← lookupFromTrapping read root vb thinMaxDepth root
  exact (.ok (found.map fun value => value >>> timeBits))

section Reads

variable {V : Type} (read : V → Nat → Nat → Trapping BlockError (List UInt8))

def RaidMap.readMemberTrapping (raid : RaidMap V) : ReadMemberTrapping := fun slot off len =>
  match raid.images.getD slot none with
  | some image => do
      let bytes ← read image ((raid.dataOffset + off) % 2 ^ 64) len
      exact (.ok (some bytes))
  | none => exact (.ok none)

def readImagesTrapping (place want : Nat) :
    List (Option V) → Option BlockError → Trapping BlockError (List UInt8)
  | [], last => exact (.error (last.getD (.custom "no image of the mirror is present")))
  | none :: rest, last => readImagesTrapping place want rest last
  | some image :: rest, _ =>
      settle (read image (place % 2 ^ 64) want) fun
        | .ok bytes => exact (.ok bytes)
        | .error error => readImagesTrapping place want rest (some error)

def RaidMap.readPieceTrapping (raid : RaidMap V) (within want : Nat) :
    Trapping BlockError (List UInt8) :=
  if raid.level = levelRaid1 then
    readImagesTrapping read (raid.dataOffset + within) want raid.images none
  else
    let inner := within % raid.chunk
    readChunkTrapping raid.striping (raid.readMemberTrapping read) (within / raid.chunk) inner
      (min (raid.chunk - inner) want)

def readThinTrapping (thin : ThinMap V) (within want : Nat) :
    Trapping BlockError (List UInt8) := do
  let inner := within % thin.block
  let take := min (thin.block - inner) want
  let mapped ← settle (dataBlockTrapping (read thin.metadata) thin.root (within / thin.block))
    fun answer => exact (answer.mapError LvmError.toBlock)
  match mapped with
  | some db => do
      exact (refuseIf (2 ^ 64 ≤ db * thin.block + inner)
        (.custom s!"thin data block {db} overflows"))
      read thin.data (db * thin.block + inner) take
  | none => exact (.ok (List.replicate take 0))

def readMapTrapping (devices : List BlockRead) (map : RunMap V) (within want : Nat) :
    Trapping BlockError (List UInt8) :=
  match map with
  | .striped stripeSize stripes => exact (readStriped devices stripeSize stripes within want)
  | .raid raid => raid.readPieceTrapping read within want
  | .thin thin => readThinTrapping read thin within want

def readRunPieceTrapping (devices : List BlockRead) (runs : List (Run V)) (position left : Nat) :
    Trapping BlockError (List UInt8) :=
  let pos := position % 2 ^ 64
  match runs.find? fun r => r.start ≤ pos ∧ pos < (r.start + r.len) % 2 ^ 64 with
  | none =>
      exact (.error (.outOfBounds pos left
        ((runs.getLast?.map fun r => (r.start + r.len) % 2 ^ 64).getD 0)))
  | some run =>
      readMapTrapping read devices run.map (pos - run.start)
        (min ((run.start + run.len) % 2 ^ 64 - pos) left)

def readRunsTrapping (devices : List BlockRead) (runs : List (Run V)) (offset len : Nat) :
    Trapping BlockError (List UInt8) :=
  readPiecesTrapping (readRunPieceTrapping read devices runs) len offset len

end Reads

def readVolumeTrapping (devices : List BlockRead) :
    (levels : Nat) → Volume levels → Nat → Nat → Trapping BlockError (List UInt8)
  | 0, volume => nomatch volume
  | levels + 1, runs => readRunsTrapping (readVolumeTrapping devices levels) devices runs

/-! ## Volumes with a place for everything -/

/-- A RAID segment's layout has a place at its level.  Level 1 and the copies of level 10 have
no rows to place, and level 4 places them in one way whatever its layout says. -/
def RaidMap.Placed {V : Type} (raid : RaidMap V) : Prop :=
  raid.level ≠ levelRaid1 → raid.raid10 = none → raid.level ≠ levelRaid4 →
    LayoutPlaced raid.level raid.layout

/-- A run's layout has a place, and so have its sub-volumes'. -/
def RunMap.Placed {V : Type} (sub : V → Prop) : RunMap V → Prop
  | .striped _ _ => True
  | .raid own => own.Placed ∧ ∀ image, some image ∈ own.images → sub image
  | .thin own => sub own.metadata ∧ sub own.data

/-- Every run that has a byte has a layout with a place. -/
def RunsPlaced {V : Type} (sub : V → Prop) (runs : List (Run V)) : Prop :=
  ∀ run ∈ runs, 0 < run.len → run.map.Placed sub

def VolumePlaced : (levels : Nat) → Volume levels → Prop
  | 0, volume => nomatch volume
  | levels + 1, runs => RunsPlaced (VolumePlaced levels) runs

section Exact

variable {V : Type} {read : V → Nat → Nat → Trapping BlockError (List UInt8)}
  {plain : V → Nat → Nat → Except BlockError (List UInt8)}

/-- Reads of a sub-volume do not stop. -/
def ReadsExactly (read : V → Nat → Nat → Trapping BlockError (List UInt8))
    (plain : V → Nat → Nat → Except BlockError (List UInt8)) (volume : V) : Prop :=
  ∀ off len, read volume off len = exact (plain volume off len)

theorem exact_readMember {raid : RaidMap V}
    (images : ∀ image, some image ∈ raid.images → ReadsExactly read plain image)
    (slot off len : Nat) :
    raid.readMemberTrapping read slot off len = exact (raid.readMember plain slot off len) := by
  unfold RaidMap.readMemberTrapping RaidMap.readMember
  cases found : raid.images.getD slot none with
  | none => rfl
  | some image =>
      have listed : some image ∈ raid.images := by
        rw [List.getD_eq_getElem?_getD] at found
        cases there : raid.images[slot]? with
        | none =>
            rw [there] at found
            cases found
        | some answer =>
            rw [there, Option.getD_some] at found
            exact List.mem_of_getElem? (found ▸ there)
      exact exact_bind (images image listed _ len) fun bytes _ => rfl

theorem exact_readImages {images : List (Option V)}
    (each : ∀ image, some image ∈ images → ReadsExactly read plain image) (place want : Nat)
    (last : Option BlockError) :
    readImagesTrapping read place want images last =
      exact (readImages plain place want images last) := by
  induction images generalizing last with
  | nil => rfl
  | cons image rest ih =>
      have others := ih fun other listed => each other (List.mem_cons_of_mem _ listed)
      cases image with
      | none => exact others last
      | some image =>
          rw [readImagesTrapping, readImages, each image List.mem_cons_self, settle_exact]
          generalize plain image (place % 2 ^ 64) want = answer
          cases answer with
          | error error => exact others _
          | ok bytes => rfl

theorem exact_readPiece {raid : RaidMap V} (placed : raid.Placed)
    (images : ∀ image, some image ∈ raid.images → ReadsExactly read plain image)
    (within want : Nat) :
    raid.readPieceTrapping read within want = exact (raid.readPiece plain within want) := by
  unfold RaidMap.readPieceTrapping RaidMap.readPiece
  split
  next => exact exact_readImages images _ _ _
  next other =>
    have rows : raid.striping.raid10 = none → raid.striping.level ≠ levelRaid4 →
        LayoutPlaced raid.striping.level raid.striping.layout := placed other
    exact exact_readChunk (exact_readMember images) rows _ _ _

/-- A RAID segment whose layout has no place is not read. -/
theorem readPieceTrapping_of_not {raid : RaidMap V} (unplaced : ¬ raid.Placed)
    (within want : Nat) : raid.readPieceTrapping read within want = trap := by
  unfold RaidMap.Placed at unplaced
  simp only [not_forall] at unplaced
  obtain ⟨other, uncopied, four, bad⟩ := unplaced
  unfold RaidMap.readPieceTrapping
  rw [if_neg other]
  have rows : ¬ LayoutPlaced raid.striping.level raid.striping.layout := bad
  exact readChunkTrapping_of_not uncopied four rows _ _ _ _

section Thin

variable {block : ReadBlockTrapping} {plainBlock : ReadBlock}
  (blocks : ∀ off len, block off len = exact (plainBlock off len))

include blocks

theorem exact_checkedBlock (n : Nat) (xor : UInt32) (what : String) :
    checkedBlockTrapping block n xor what = exact (checkedBlock plainBlock n xor what) := by
  unfold checkedBlockTrapping checkedBlock
  refine exact_bind rfl fun _ _ => ?_
  rw [blocks, settle_exact]
  refine exact_bind rfl fun b _ => ?_
  exact exact_bind rfl fun _ _ => rfl

theorem exact_lookupFrom (root key depth place : Nat) :
    lookupFromTrapping block root key depth place =
      exact (lookupFrom plainBlock root key depth place) := by
  induction depth generalizing place with
  | zero => rfl
  | succ depth ih =>
      unfold lookupFromTrapping lookupFrom
      refine exact_bind (exact_checkedBlock blocks _ _ _) fun b _ => ?_
      refine exact_bind rfl fun _ _ => ?_
      refine exact_bind rfl fun _ _ => ?_
      dsimp only
      generalize partitionPoint _ _ = below
      cases below with
      | zero => rfl
      | succ i =>
          dsimp only
          split
          next => exact ih _
          next =>
            split
            next => rfl
            next => rfl

theorem exact_dataBlock (root vb : Nat) :
    dataBlockTrapping block root vb = exact (dataBlock plainBlock root vb) :=
  exact_bind (exact_lookupFrom blocks root vb _ _) fun _ _ => rfl

end Thin

theorem exact_readThin {thin : ThinMap V} (metadata : ReadsExactly read plain thin.metadata)
    (data : ReadsExactly read plain thin.data) (within want : Nat) :
    readThinTrapping read thin within want = exact (readThin plain thin within want) := by
  unfold readThinTrapping readThin
  dsimp only
  rw [exact_dataBlock metadata, settle_exact]
  refine exact_bind rfl fun mapped _ => ?_
  cases mapped with
  | none => rfl
  | some db => exact exact_bind rfl fun _ _ => data _ _

theorem exact_readMap (devices : List BlockRead) {map : RunMap V}
    (placed : map.Placed (ReadsExactly read plain)) (within want : Nat) :
    readMapTrapping read devices map within want = exact (readMap plain devices map within want) := by
  cases map with
  | striped stripeSize stripes => rfl
  | raid raid => exact exact_readPiece placed.1 placed.2 within want
  | thin thin => exact exact_readThin placed.1 placed.2 within want

/-- Only a run that has the position is read. -/
theorem pos_of_find {runs : List (Run V)} {pos : Nat} {run : Run V}
    (found : (runs.find? fun r => r.start ≤ pos ∧ pos < (r.start + r.len) % 2 ^ 64) = some run) :
    run ∈ runs ∧ 0 < run.len := by
  have served := List.find?_some found
  rw [decide_eq_true_iff] at served
  refine ⟨List.mem_of_find?_eq_some found, ?_⟩
  have wrapped := Nat.mod_le (run.start + run.len) (2 ^ 64)
  omega

theorem exact_readRuns (devices : List BlockRead) {runs : List (Run V)}
    (placed : RunsPlaced (ReadsExactly read plain) runs) (offset len : Nat) :
    readRunsTrapping read devices runs offset len = exact (readRuns plain devices runs offset len) := by
  refine exact_readPieces (fun position left => ?_) _ _ _
  unfold readRunPieceTrapping readRunPiece
  dsimp only
  cases found : runs.find? fun r => r.start ≤ position % 2 ^ 64 ∧
      position % 2 ^ 64 < (r.start + r.len) % 2 ^ 64 with
  | none => rfl
  | some run =>
      obtain ⟨listed, positive⟩ := pos_of_find found
      exact exact_readMap devices (placed run listed positive) _ _

/-- A run whose layout has no place is not read from. -/
theorem readRunsTrapping_of_not (devices : List BlockRead) {runs : List (Run V)} {run : Run V}
    {offset : Nat} {raid : RaidMap V}
    (served : (runs.find? fun r => r.start ≤ offset % 2 ^ 64 ∧
      offset % 2 ^ 64 < (r.start + r.len) % 2 ^ 64) = some run)
    (own : run.map = .raid raid) (unplaced : ¬ raid.Placed) {len : Nat} (some_len : 0 < len) :
    readRunsTrapping read devices runs offset len = trap := by
  have piece : ∀ left, readRunPieceTrapping read devices runs offset left = trap := by
    intro left
    unfold readRunPieceTrapping
    dsimp only
    rw [served]
    dsimp only
    rw [own]
    exact readPieceTrapping_of_not unplaced _ _
  obtain ⟨fuel, rfl⟩ := Nat.exists_eq_add_one.mpr some_len
  unfold readRunsTrapping
  rw [readPiecesTrapping, if_neg (Nat.succ_ne_zero fuel), piece, trap_bind]

end Exact

section Sub

variable {V : Type} {sub other : V → Prop} (weaken : ∀ volume, sub volume → other volume)

include weaken

theorem RunMap.Placed.imp {map : RunMap V} (placed : map.Placed sub) : map.Placed other := by
  cases map with
  | striped stripeSize stripes => trivial
  | raid own => exact ⟨placed.1, fun image listed => weaken image (placed.2 image listed)⟩
  | thin own => exact ⟨weaken _ placed.1, weaken _ placed.2⟩

theorem RunsPlaced.imp {runs : List (Run V)} (placed : RunsPlaced sub runs) :
    RunsPlaced other runs :=
  fun run listed positive => (placed run listed positive).imp weaken

end Sub

/-- A volume with a place for everything is read without a stop, as it is without the checks. -/
theorem exact_readVolume (devices : List BlockRead) {levels : Nat} {volume : Volume levels}
    (placed : VolumePlaced levels volume) :
    ReadsExactly (readVolumeTrapping devices levels) (readVolume devices levels) volume := by
  induction levels with
  | zero => exact nomatch volume
  | succ levels ih =>
      intro offset len
      exact exact_readRuns devices (RunsPlaced.imp (fun _ sub => ih sub) placed) offset len

end DiskPartitions
