import DiskPartitions.SegmentArrays
import DiskPartitions.Raid10Reads
import DiskPartitions.WithheldReads
import DiskPartitions.ZonedArrays

/-!
# Reading an array whose members fail

A member of an array may fail any read, of a bad sector or for good, without being missing: it
holds its slot, and assembly counted on it.  The levels with one copy of the data pass the
failure on, and the mirrors ask another copy.  Either way an array whose data areas encode a
byte string never answers anything but a part of the string.
-/

namespace DiskPartitions

open Slices BufferedReads Refusals WithheldReads

/-! ## Chunks through members that withhold -/

section Chunks

variable {first second : ReadMember}
  (below : ∀ slot off len, Below (first slot off len) (second slot off len))

include below

theorem xorRow_below (dd : Nat) (qd : Option Nat) (off len : Nat) (slots : List Nat)
    (buf : List UInt8) :
    Below (xorRow first dd qd off len slots buf) (xorRow second dd qd off len slots buf) := by
  induction slots generalizing buf with
  | nil => exact .refl _
  | cons slot slots ih =>
      rw [xorRow, xorRow]
      refine .ite (fun _ => ih buf) fun _ => (below slot off len).bind fun found _ => ?_
      cases found with
      | none => exact .refl _
      | some tmp => exact ih (xorInto buf tmp)

theorem take_below (layout n stripe off len : Nat) (row : Syndromes) (i : Nat) :
    Below (Syndromes.take first layout n stripe off len row i)
      (Syndromes.take second layout n stripe off len row i) := by
  unfold Syndromes.take
  refine (below _ off len).bind fun found _ => ?_
  exact .refl _

theorem rebuildRaid6_below (s : Striping) (stripe x off len : Nat) :
    Below (rebuildRaid6 s first stripe x off len) (rebuildRaid6 s second stripe x off len) := by
  unfold rebuildRaid6
  refine (below _ off len).bind fun p _ => (below _ off len).bind fun q _ => ?_
  refine Below.bind ?_ fun row _ => .refl _
  refine .foldlM (List.forall₂_same.mpr fun i _ row => ?_) _
  exact take_below below s.layout s.members stripe off len row i

/-- A chunk with one place of its own is answered as the members answer it. -/
theorem readChunk_below {s : Striping} (rows : s.raid10 = none) (k within len : Nat) :
    Below (readChunk s first k within len) (readChunk s second k within len) := by
  unfold readChunk
  rw [rows]
  refine (below _ _ _).bind fun found _ => ?_
  cases found with
  | some bytes => exact .refl _
  | none =>
      exact .ite (fun _ => rebuildRaid6_below below s _ _ _ _) fun _ =>
        xorRow_below below _ _ _ _ _ _

end Chunks

/-! ## Copies that are tried in turn -/

/-- What a mirror answers, one of its legs answers. -/
theorem MdArray.exists_of_readLegs {offset len : Nat} {legs : List Member} {bytes : List UInt8}
    {last : Option BlockError} (read : readLegs offset len legs last = .ok bytes) :
    ∃ m ∈ legs, m.dev.readAt (m.dataOffset + offset) len = .ok bytes := by
  induction legs generalizing last with
  | nil => cases read
  | cons m legs ih =>
      rw [readLegs] at read
      cases own : m.dev.readAt (m.dataOffset + offset) len with
      | ok found =>
          rw [own] at read
          cases read
          exact ⟨m, List.mem_cons_self, own⟩
      | error error =>
          rw [own] at read
          obtain ⟨other, listed, answered⟩ := ih read
          exact ⟨other, List.mem_cons_of_mem m listed, answered⟩

/-- A mirror answers as soon as one of its legs does. -/
theorem MdArray.readLegs_answers {offset len : Nat} {legs : List Member}
    (readable : ∃ m ∈ legs, ∃ bytes, m.dev.readAt (m.dataOffset + offset) len = .ok bytes)
    (last : Option BlockError) : ∃ bytes, readLegs offset len legs last = .ok bytes := by
  induction legs generalizing last with
  | nil =>
      obtain ⟨m, listed, -⟩ := readable
      cases listed
  | cons m legs ih =>
      rw [readLegs]
      cases read : m.dev.readAt (m.dataOffset + offset) len with
      | ok bytes => exact ⟨bytes, rfl⟩
      | error error =>
          refine ih ?_ (some error)
          obtain ⟨other, listed, bytes, answered⟩ := readable
          rcases List.mem_cons.mp listed with rfl | later
          · rw [read] at answered
            cases answered
          · exact ⟨other, later, bytes, answered⟩

section Copies

variable {member : ReadMember} {chunk within len : Nat} {gone : BlockError}
  {places : List (Nat × Nat)}

/-- What a chunk's copies answer, one of them answers. -/
theorem exists_of_readCopies {bytes : List UInt8} {last : Option BlockError}
    (read : readCopies member chunk within len gone places last = .ok bytes) :
    ∃ place ∈ places, member place.1 (place.2 * chunk + within) len = .ok (some bytes) := by
  induction places generalizing last with
  | nil => cases read
  | cons place places ih =>
      obtain ⟨slot, row⟩ := place
      have later : ∀ last, readCopies member chunk within len gone places last = .ok bytes →
          ∃ place ∈ (slot, row) :: places,
            member place.1 (place.2 * chunk + within) len = .ok (some bytes) := by
        intro last read
        obtain ⟨other, listed, answered⟩ := ih read
        exact ⟨other, List.mem_cons_of_mem _ listed, answered⟩
      rw [readCopies] at read
      cases own : member slot (row * chunk + within) len with
      | error error =>
          rw [own] at read
          exact later _ read
      | ok found =>
          rw [own] at read
          cases found with
          | none => exact later _ read
          | some found =>
              cases read
              exact ⟨(slot, row), List.mem_cons_self, own⟩

/-- A chunk is answered as soon as one of its copies is. -/
theorem readCopies_answers
    (readable : ∃ place ∈ places, ∃ bytes,
      member place.1 (place.2 * chunk + within) len = .ok (some bytes))
    (last : Option BlockError) :
    ∃ bytes, readCopies member chunk within len gone places last = .ok bytes := by
  induction places generalizing last with
  | nil =>
      obtain ⟨place, listed, -⟩ := readable
      cases listed
  | cons place places ih =>
      have later : (∃ bytes, member place.1 (place.2 * chunk + within) len = .ok (some bytes)) ∨
          ∃ other ∈ places, ∃ bytes,
            member other.1 (other.2 * chunk + within) len = .ok (some bytes) := by
        obtain ⟨other, listed, answered⟩ := readable
        rcases List.mem_cons.mp listed with rfl | further
        · exact .inl answered
        · exact .inr ⟨other, further, answered⟩
      obtain ⟨slot, row⟩ := place
      rw [readCopies]
      rcases later with ⟨bytes, answered⟩ | later
      · rw [answered]
        exact ⟨bytes, rfl⟩
      · cases member slot (row * chunk + within) len with
        | error error => exact ih later (some error)
        | ok found =>
            cases found with
            | none => exact ih later last
            | some bytes => exact ⟨bytes, rfl⟩

end Copies

/-! ## Members backed by their data areas -/

/-- A member that answers from its data area whatever lies in it. -/
def Member.backed (m : Member) (area : List UInt8) : BlockRead where
  sizeBytes := m.dev.sizeBytes
  readAt off len :=
    if m.dataOffset ≤ off ∧ off - m.dataOffset + len ≤ area.length then
      .ok (slice area (off - m.dataOffset) len)
    else m.dev.readAt off len
  length_readAt := by
    intro off len bytes read
    split at read
    next inside =>
      cases read
      exact length_slice inside.2
    next => exact m.dev.length_readAt read

theorem Member.readAt_backed (m : Member) {area : List UInt8} {off len : Nat}
    (inside : off + len ≤ area.length) :
    (m.backed area).readAt (m.dataOffset + off) len = .ok (slice area off len) := by
  have moved : m.dataOffset + off - m.dataOffset = off := by omega
  unfold backed
  dsimp only
  rw [if_pos (by omega), moved]

namespace MdArray

/-- A member that is there answers no read inside its data area with anything but what the area
holds.  It may fail any of them. -/
def TellsAreas (array : MdArray) (areas : Nat → List UInt8) : Prop :=
  ∀ slot (m : Member), array.slots[slot]? = some (some m) → ∀ off len,
    off + len ≤ (areas slot).length →
    Tells (m.dev.readAt (m.dataOffset + off) len) (slice (areas slot) off len)

/-- The array with every member backed by its data area. -/
def backed (array : MdArray) (areas : Nat → List UInt8) : MdArray :=
  { array with
    slots := array.slots.mapIdx fun slot =>
      Option.map fun m => { m with dev := m.backed (areas slot) } }

variable {array : MdArray} {areas : Nat → List UInt8}

@[simp]
theorem length_slots_backed : (array.backed areas).slots.length = array.slots.length :=
  List.length_mapIdx

theorem getElem?_slots_backed (slot : Nat) :
    (array.backed areas).slots[slot]? = array.slots[slot]?.map
      (Option.map fun m => { m with dev := m.backed (areas slot) }) := by
  unfold backed
  rw [List.getElem?_mapIdx]

theorem getD_slots_backed (slot : Nat) :
    (array.backed areas).slots.getD slot none = (array.slots.getD slot none).map
      fun m => { m with dev := m.backed (areas slot) } := by
  rw [List.getD_eq_getElem?_getD, getElem?_slots_backed, List.getD_eq_getElem?_getD]
  cases array.slots[slot]? with
  | none => rfl
  | some entry => rfl

theorem exists_of_backed {slot : Nat} {m : Member}
    (found : (array.backed areas).slots[slot]? = some (some m)) :
    ∃ own, array.slots[slot]? = some (some own) ∧
      m = { own with dev := own.backed (areas slot) } := by
  rw [getElem?_slots_backed, Option.map_eq_some_iff] at found
  obtain ⟨entry, there, found⟩ := found
  obtain ⟨own, rfl, rfl⟩ := Option.map_eq_some_iff.mp found
  exact ⟨own, there, rfl⟩

/-- A read inside the data area of a backed member. -/
theorem readAt_of_backed {slot : Nat} {m : Member}
    (found : (array.backed areas).slots[slot]? = some (some m)) {off len : Nat}
    (inside : off + len ≤ (areas slot).length) :
    m.dev.readAt (m.dataOffset + off) len = .ok (slice (areas slot) off len) := by
  obtain ⟨own, -, rfl⟩ := exists_of_backed found
  exact own.readAt_backed inside

theorem present_backed (slot : Nat) : (array.backed areas).present slot = array.present slot := by
  unfold present
  rw [getD_slots_backed, Option.isSome_map]

@[simp]
theorem presentCount_backed : presentCount (array.backed areas).slots = presentCount array.slots := by
  have same := (array.backed areas).card_absent
  have own := array.card_absent
  simp only [present_backed, length_slots_backed] at same
  omega

/-- Backing the members hides their failures and nothing else. -/
theorem readMember_backed (tells : array.TellsAreas areas) (slot off len : Nat) :
    Below (array.readMember slot off len) ((array.backed areas).readMember slot off len) := by
  unfold readMember
  rw [getD_slots_backed]
  cases found : array.slots.getD slot none with
  | none => exact .refl _
  | some m =>
      dsimp only [Option.map_some]
      refine Below.bind ?_ fun bytes _ => .refl _
      have there : array.slots[slot]? = some (some m) := by
        rw [List.getD_eq_getElem?_getD] at found
        cases entry : array.slots[slot]? with
        | none =>
            rw [entry] at found
            cases found
        | some held =>
            rw [entry] at found
            exact congrArg some found
      by_cases inside : off + len ≤ (areas slot).length
      · rw [m.readAt_backed inside]
        intro bytes answered
        rw [tells slot m there off len inside bytes answered]
      · unfold Member.backed
        dsimp only
        rw [if_neg (by omega)]
        exact .refl _

@[simp]
theorem striping_backed : (array.backed areas).striping = array.striping := by
  unfold striping
  rw [length_slots_backed]
  rfl

end MdArray

/-! ## What the data areas stand for -/

/-- The members' data areas encode a byte string, in the way of the array's level. -/
inductive MdArray.Encodes (array : MdArray) (areas : Nat → List UInt8) (data : List UInt8) : Prop
  | mirrored (level : array.level = levelRaid1) (length : data.length = array.size)
      (legs : ∀ slot m, array.slots[slot]? = some (some m) → areas slot = data)
  | zoned (level : array.level = levelRaid0 ∨ array.level = levelLinear)
      (length : data.length = array.size)
      (whole : ((array.slots.filterMap id).map array.usable).sum = array.size)
      (lengths : ∀ slot m, array.slots[slot]? = some (some m) → (areas slot).length = m.dataSize)
      (mapped : ∀ pos < array.size, array.mappedByte areas pos = data.getD pos default)
  | rows (level : IsParityLevel array.level) (encoded : array.EncodesParity areas data)
  | copied (level : array.level = levelRaid10)
      (lengths : ∀ slot < array.slots.length,
        (areas slot).length = array.superblock.componentSize)
      (encoded : ∀ geo, array.raid10 = some geo → array.EncodesCopies geo areas data)

theorem ParityShape.backed {array : MdArray} (shape : ParityShape array) (areas : Nat → List UInt8) :
    ParityShape (array.backed areas) where
  chunk_pos := shape.chunk_pos
  several := by
    rw [MdArray.length_slots_backed]
    exact shape.several
  known := shape.known
  enough := by
    rw [MdArray.length_slots_backed, MdArray.presentCount_backed]
    exact shape.enough
  size := by
    rw [MdArray.length_slots_backed]
    exact shape.size
  no_copies := shape.no_copies

namespace MdArray

variable {array : MdArray} {areas : Nat → List UInt8} {data : List UInt8}

/-! ### Rows -/

theorem EncodesParity.backed (encoded : array.EncodesParity areas data) :
    (array.backed areas).EncodesParity areas data := by
  have count : (array.backed areas).dataCount = array.dataCount := by
    unfold dataCount
    rw [length_slots_backed]
    rfl
  have placed : (array.backed areas).dataMember = array.dataMember := by
    funext stripe i
    unfold dataMember
    rw [length_slots_backed]
    rfl
  have parity : (array.backed areas).parityMember = array.parityMember := by
    funext stripe
    unfold parityMember
    rw [length_slots_backed]
    rfl
  have syndrome : (array.backed areas).qMember = array.qMember := by
    funext stripe
    unfold qMember
    rw [length_slots_backed]
    rfl
  have chunks : (array.backed areas).dataChunk data = array.dataChunk data := by
    funext stripe i
    unfold dataChunk
    rw [count]
    rfl
  constructor
  · exact encoded.length_data
  · rw [length_slots_backed]
    exact encoded.length_area
  · rw [count, placed, chunks]
    exact encoded.chunks
  · rw [count, parity, chunks]
    exact encoded.parity
  · rw [count, syndrome, chunks, length_slots_backed]
    exact encoded.syndrome

/-- A piece of a read of rows with parity answers nothing but the string's bytes. -/
theorem readPiece_tells_rows (shape : ParityShape array) (encoded : array.EncodesParity areas data)
    (tells : array.TellsAreas areas) {position left : Nat} (some_left : 0 < left)
    (inside : position + left ≤ array.size) :
    Tells (array.readPiece position left)
      (slice data position (min (array.chunk - position % array.chunk) left)) := by
  have holds : (array.backed areas).HoldsAreas areas := by
    intro slot m found off len fits
    refine readAt_of_backed found ?_
    have bound := (List.getElem?_eq_some_iff.mp found).1
    rw [length_slots_backed] at bound
    rw [encoded.length_area slot bound]
    exact fits
  have sure := readPiece_parity encoded.backed holds (shape.backed areas) some_left inside
  have below : Below (array.readPiece position left)
      ((array.backed areas).readPiece position left) := by
    unfold readPiece
    dsimp only
    rw [striping_backed]
    exact readChunk_below (readMember_backed tells) shape.no_copies _ _ _
  intro bytes answered
  have same := below bytes answered
  by_cases lost : ∃ place, position ≤ place ∧
      place < position +
        min ((array.backed areas).chunk - position % (array.backed areas).chunk) left ∧
      (array.backed areas).Unrecoverable (place / (array.backed areas).chunk)
  · obtain ⟨error, failed⟩ := sure.fails lost
    rw [failed] at same
    cases same
  · rw [sure.reads fun place after before bad => lost ⟨place, after, before, bad⟩] at same
    cases same
    rfl

/-! ### Zones -/

/-- A piece of a read of zones answers nothing but the string's bytes. -/
theorem readZoned_tells (shape : ZonedShape array)
    (lengths : ∀ slot m, array.slots[slot]? = some (some m) → (areas slot).length = m.dataSize)
    (mapped : ∀ pos < array.size, array.mappedByte areas pos = data.getD pos default)
    (length : data.length = array.size) (tells : array.TellsAreas areas) {position left : Nat}
    (some_left : 0 < left) (inside : position + left ≤ array.size) :
    ∃ taken, 0 < taken ∧ taken ≤ left ∧
      Tells (array.readZoned position left) (slice data position taken) := by
  have sureShape : ZonedShape (array.backed areas) := by
    refine ⟨shape.tiles, ?_, shape.each, shape.apart, ?_, shape.runs⟩
    · intro z member within short
      obtain ⟨m, present, low⟩ := shape.inside z member within short
      refine ⟨{ m with dev := m.backed (areas (array.zonePlace z within).1) }, ?_, low⟩
      rw [getElem?_slots_backed]
      exact congrArg (Option.map _) present
    · intro slot m present off low
      obtain ⟨own, there, rfl⟩ := exists_of_backed present
      exact shape.onto slot own there off low
  have holds : (array.backed areas).HoldsData areas := by
    intro slot m found
    obtain ⟨own, there, same⟩ := exists_of_backed found
    have stated : (areas slot).length = m.dataSize := by
      rw [same]
      exact lengths slot own there
    exact ⟨stated, fun off len fits => readAt_of_backed found (by rw [stated]; exact fits)⟩
  obtain ⟨taken, positive, bounded, read⟩ := readZoned_content sureShape holds some_left inside
  refine ⟨taken, positive, bounded, ?_⟩
  have same : slice data position taken =
      buffer taken fun j => (array.backed areas).mappedByte areas (position + j) := by
    rw [slice_eq_buffer (by rw [length]; omega)]
    refine buffer_congr fun j below => ?_
    exact (mapped (position + j) (by omega)).symm
  rw [same]
  refine Below.tells ?_ read
  have pair := readMember_backed tells
  have zones : (array.backed areas).zones = array.zones := rfl
  rw [readZoned_eq, readZoned_eq, zones]
  cases array.zones.find? fun z => z.start ≤ position ∧ position < z.start + z.len with
  | none => exact .refl _
  | some z =>
      refine (pair _ _ _).bind fun found _ => ?_
      exact .refl _

/-! ### Copies -/

theorem exists_slot {m : Member} (member : m ∈ array.slots.filterMap id) :
    ∃ slot : Nat, array.slots[slot]? = some (some m) := by
  obtain ⟨entry, listed, same⟩ := List.mem_filterMap.mp member
  cases same
  exact List.getElem?_of_mem listed

/-- A piece of a read of copies goes through the copies of its chunk, the primary first. -/
theorem readPiece_copies {geo : Raid10} (shape : CopiesShape array geo) (position left : Nat) :
    array.readPiece position left = readCopies array.readMember array.chunk
      (position % array.chunk) (min (array.chunk - position % array.chunk) left)
      (.custom s!"md: no copy of chunk {position / array.chunk} is present")
      (geo.copies array.slots.length (position / array.chunk)) none := by
  obtain ⟨rest, copies⟩ := Raid10.copies_eq_cons (d := array.slots.length) shape.fits.near
    shape.fits.far (position / array.chunk)
  have tried : geo.primary array.slots.length (position / array.chunk) ::
      (geo.copies array.slots.length (position / array.chunk)).drop 1 =
        geo.copies array.slots.length (position / array.chunk) := by
    rw [copies]
    rfl
  unfold readPiece readChunk
  simp only [striping, shape.copies, tried]

/-- A piece of a read of copies answers nothing but the string's bytes. -/
theorem readPiece_tells_copies {geo : Raid10} (shape : CopiesShape array geo)
    (encoded : array.EncodesCopies geo areas data)
    (lengths : ∀ slot < array.slots.length, (areas slot).length = array.superblock.componentSize)
    (tells : array.TellsAreas areas) {position left : Nat} (some_left : 0 < left)
    (inside : position + left ≤ array.size) :
    Tells (array.readPiece position left)
      (slice data position (min (array.chunk - position % array.chunk) left)) := by
  have within := Nat.mod_lt position shape.chunk_pos
  have size := shape.size
  have chunk : position / array.chunk < array.chunkCount := by
    rw [Nat.div_lt_iff_lt_mul shape.chunk_pos]
    omega
  have fits : position % array.chunk + min (array.chunk - position % array.chunk) left ≤
      array.chunk := by omega
  rw [readPiece_copies shape]
  intro found answered
  obtain ⟨place, listed, read⟩ := exists_of_readCopies answered
  obtain ⟨i, -, j, -, same⟩ := Raid10.mem_copies.mp listed
  have slot : place.1 < array.slots.length := by
    rw [same]
    exact Raid10.copySlot_lt shape.fits.members _ i j
  have row := row_fits (shape.row_lt chunk listed) fits
  unfold readMember at read
  cases entry : array.slots.getD place.1 none with
  | none =>
      rw [entry] at read
      cases read
  | some m =>
      rw [entry] at read
      obtain ⟨bytes, answered, read⟩ := bind_eq_ok.mp read
      cases read
      have there : array.slots[place.1]? = some (some m) := by
        rw [List.getElem?_eq_getElem slot]
        rw [List.getD_eq_getElem?_getD, List.getElem?_eq_getElem slot] at entry
        exact congrArg some entry
      rw [tells place.1 m there _ _ (by rw [lengths place.1 slot]; exact row) found answered]
      rw [← slice_slice fits, encoded.copies _ chunk place listed, slice_slice fits,
        Nat.div_add_mod' position array.chunk]

end MdArray

theorem MdArray.length_readMember {array : MdArray} {slot off len : Nat} {bytes : List UInt8}
    (read : array.readMember slot off len = .ok (some bytes)) : bytes.length = len := by
  unfold readMember at read
  cases entry : array.slots.getD slot none with
  | none =>
      rw [entry] at read
      cases read
  | some m =>
      rw [entry] at read
      obtain ⟨found, answered, read⟩ := bind_eq_ok.mp read
      cases read
      exact m.dev.length_readAt answered

/-! ## Whole reads -/

/-- Of a mirror, some copy of each part of a read answers: a leg answers the whole of it, or at
level 10 a copy of each chunk answers what the read has of the chunk. -/
inductive MdArray.CopiesAnswer (array : MdArray) (offset len : Nat) : Prop
  | legs (level : array.level = levelRaid1)
      (answers : ∃ m ∈ array.slots.filterMap id, ∃ bytes,
        m.dev.readAt (m.dataOffset + offset) len = .ok bytes)
  | chunks (level : array.level = levelRaid10)
      (answers : ∀ geo, array.raid10 = some geo → ∀ position left, offset ≤ position →
        position = offset ∨ array.chunk ∣ position → 0 < left → position + left = offset + len →
        ∃ place ∈ geo.copies array.slots.length (position / array.chunk), ∃ bytes,
          array.readMember place.1 (place.2 * array.chunk + position % array.chunk)
            (min (array.chunk - position % array.chunk) left) = .ok (some bytes))

/-- A read of a mirror in range answers when a copy of each part of it does. -/
theorem MdArray.CopiesAnswer.answers {array : MdArray} (assembled : Assembled array)
    {offset len : Nat} (copies : array.CopiesAnswer offset len) (inside : offset + len ≤ array.size) :
    ∃ bytes, array.readAt offset len = .ok bytes := by
  unfold readAt
  rw [if_neg (Nat.not_lt.mpr inside)]
  cases copies with
  | legs level answers =>
      rw [if_pos level]
      exact readLegs_answers answers none
  | chunks level answers =>
      obtain ⟨geo, shape⟩ := assembled.copiesShape level
      rw [level, if_neg (by decide), if_neg (by decide)]
      refine readPieces_answers (fun position => offset ≤ position ∧
        (position = offset ∨ array.chunk ∣ position)) ?_ ⟨Nat.le_refl _, .inl rfl⟩ rfl
      rintro position left ⟨after, start⟩ some_left ends
      have readable := answers geo shape.copies position left after start some_left ends
      obtain ⟨bytes, read⟩ := readCopies_answers readable none
      have within := Nat.mod_lt position shape.chunk_pos
      have whole := Nat.div_add_mod' position array.chunk
      have length := length_readMember (exists_of_readCopies read).choose_spec.2
      refine ⟨bytes, (readPiece_copies shape position left).trans read, ?_⟩
      by_cases last : left ≤ array.chunk - position % array.chunk
      · left
        omega
      · right
        have next : position + bytes.length = (position / array.chunk + 1) * array.chunk := by
          rw [Nat.succ_mul]
          omega
        refine ⟨⟨by omega, .inr ?_⟩, by omega⟩
        rw [next]
        exact Nat.dvd_mul_left _ _

theorem MdArray.Encodes.length_data {array : MdArray} {areas : Nat → List UInt8}
    {data : List UInt8} (encoded : array.Encodes areas data) (shaped : Assembled array) :
    data.length = array.size := by
  cases encoded with
  | mirrored _ length _ => exact length
  | zoned _ length _ _ _ => exact length
  | rows _ encoded => exact encoded.length_data
  | copied level _ encoded =>
      obtain ⟨geo, shape⟩ := shaped.copiesShape level
      exact (encoded geo shape.copies).length_data

/-- Whatever the array answers is a part of the string. -/
theorem MdArray.Encodes.tells {array : MdArray} {areas : Nat → List UInt8} {data : List UInt8}
    (shaped : Assembled array) (encoded : array.Encodes areas data)
    (tells : array.TellsAreas areas) {offset len : Nat} {bytes : List UInt8}
    (read : array.readAt offset len = .ok bytes) :
    offset + len ≤ data.length ∧ bytes = slice data offset len := by
  have length := encoded.length_data shaped
  unfold MdArray.readAt at read
  split at read
  next => cases read
  next inside =>
    have inside : offset + len ≤ array.size := Nat.not_lt.mp inside
    have stored : offset + len ≤ data.length := length ▸ inside
    refine ⟨stored, ?_⟩
    cases encoded with
    | mirrored level _ legs =>
        rw [if_pos level] at read
        obtain ⟨m, member, answered⟩ := MdArray.exists_of_readLegs read
        obtain ⟨slot, there⟩ := MdArray.exists_slot member
        have told := tells slot m there offset len
        rw [legs slot m there, length] at told
        exact told inside bytes answered
    | zoned level _ whole lengths mapped =>
        have shape : ZonedShape array := by
          rcases level with raid0 | linear
          · obtain ⟨-, -, -, size⟩ := raid0_of_assembled shaped raid0
            have small : array.size < 2 ^ 64 := size ▸ Nat.mod_lt _ (by decide)
            exact zonedShape_raid0 shaped raid0 (whole.symm ▸ small)
          · exact zonedShape_linear shaped linear
        have apart : array.level ≠ levelRaid1 := by
          rcases level with raid0 | linear
          · rw [raid0]
            decide
          · rw [linear]
            decide
        rw [if_neg apart, if_pos level] at read
        refine readPieces_tells stored ?_ (Nat.le_refl len) rfl bytes read
        intro position left some_left ends
        exact MdArray.readZoned_tells shape lengths mapped length tells some_left (by omega)
    | rows level encoded =>
        have shape := shaped.parityShape level
        have apart : array.level ≠ levelRaid1 ∧ ¬ (array.level = levelRaid0 ∨
            array.level = levelLinear) := by
          rcases level with four | five | six
          · rw [four]
            decide
          · rw [five]
            decide
          · rw [six]
            decide
        rw [if_neg apart.1, if_neg apart.2] at read
        refine readPieces_tells stored ?_ (Nat.le_refl len) rfl bytes read
        intro position left some_left ends
        have within := Nat.mod_lt position shape.chunk_pos
        exact ⟨_, by omega, Nat.min_le_right _ _,
          MdArray.readPiece_tells_rows shape encoded tells some_left (by omega)⟩
    | copied level lengths encoded =>
        obtain ⟨geo, shape⟩ := shaped.copiesShape level
        rw [level, if_neg (by decide), if_neg (by decide)] at read
        refine readPieces_tells stored ?_ (Nat.le_refl len) rfl bytes read
        intro position left some_left ends
        have within := Nat.mod_lt position shape.chunk_pos
        exact ⟨_, by omega, Nat.min_le_right _ _,
          MdArray.readPiece_tells_copies shape (encoded geo shape.copies) lengths tells some_left
            (by omega)⟩

/-- Members may fail any of their reads: whatever an assembled array then answers is a part of
the byte string the members' data areas encode, and a mirror still answers every read in range
of each part of which some copy answers. -/
theorem readAt_withheldArray {devices : List BlockRead} {array : MdArray}
    {areas : Nat → List UInt8} {data : List UInt8} (assembled : assemble devices = .ok array)
    (encoded : array.Encodes areas data) (tells : array.TellsAreas areas) (offset len : Nat) :
    (∀ bytes, array.readAt offset len = .ok bytes →
        offset + len ≤ data.length ∧ bytes = slice data offset len) ∧
      (offset + len ≤ data.length → array.CopiesAnswer offset len →
        array.readAt offset len = .ok (slice data offset len)) := by
  have shaped := assembled_of_assemble assembled
  refine ⟨fun bytes => encoded.tells shaped tells, fun inside copies => ?_⟩
  rw [encoded.length_data shaped] at inside
  obtain ⟨bytes, read⟩ := copies.answers shaped inside
  rw [read, (encoded.tells shaped tells read).2]

/-! ## A mirror whose first leg fails -/

/-- A device that fails every read shorter than a superblock. -/
def BlockRead.failing (dev : BlockRead) : BlockRead where
  sizeBytes := dev.sizeBytes
  readAt off len := if len = 4096 then dev.readAt off len else .error (.custom "bad sector")
  length_readAt := by
    intro off len bytes read
    split at read
    next => exact dev.length_readAt read
    next => cases read

theorem readSuperblockOf_failing (dev : BlockRead) (member : Nat) :
    readSuperblockOf dev.failing member = readSuperblockOf dev member := by
  have reads : ∀ place, dev.failing.readMd place 4096 = dev.readMd place 4096 := fun _ => rfl
  have places : ∀ candidates, firstV1 dev.failing member candidates =
      firstV1 dev member candidates := by
    intro candidates
    induction candidates with
    | nil => rfl
    | cons place rest ih =>
        obtain ⟨place, version⟩ := place
        rw [firstV1, firstV1, reads, ih]
        rfl
  unfold readSuperblockOf
  dsimp only
  rw [places]
  rfl

/-- The first leg of the mirror, which may fail. -/
def firstLeg (fails : Bool) : BlockRead :=
  if fails then (mirrorLeg 2 0).failing else mirrorLeg 2 0

/-- Both legs of the mirror, of which the first may fail. -/
def legMirror (fails : Bool) : MdArray where
  slots := [some { dev := firstLeg fails, dataOffset := 0, dataSize := 65536 },
    some { dev := mirrorLeg 2 1, dataOffset := 0, dataSize := 65536 }]
  level := levelRaid1
  layout := 0
  chunk := 0
  size := 1024
  zones := []
  raid10 := none
  superblock := (legWords 2 0).superblock

theorem assemble_legMirror (fails : Bool) :
    assemble [firstLeg fails, mirrorLeg 2 1] = .ok (legMirror fails) := by
  have leg : ∀ slot < 2, ∀ member, readSuperblockOf (mirrorLeg 2 slot) member =
      .ok (some (legWords 2 slot).superblock) := by
    intro slot small member
    refine (superblockOf_eq_some member).mp ?_
    exact superblockOf_mirrorLeg (by decide) (by omega)
  have reads : ∀ entry ∈ [(firstLeg fails, (legWords 2 0).superblock),
      (mirrorLeg 2 1, (legWords 2 1).superblock)], ∀ member,
      readSuperblockOf entry.1 member = .ok (some entry.2) := by
    intro entry inside member
    simp only [List.mem_cons, List.not_mem_nil, or_false] at inside
    obtain rfl | rfl := inside
    · cases fails with
      | false => exact leg 0 (by decide) member
      | true => exact (readSuperblockOf_failing _ _).trans (leg 0 (by decide) member)
    · exact leg 1 (by decide) member
  have found := readMembers_eq reads
  simp only [List.map_cons, List.map_nil] at found
  unfold assemble
  rw [refuseIf_of_not (by simp), ok_bind, found, ok_bind]
  cases fails <;> rfl

theorem readAt_mirrorLeg (slot : Nat) {off len : Nat} (inside : off + len ≤ 1024) :
    (mirrorLeg 2 slot).readAt (0 + off) len = .ok (slice (List.replicate 1024 5) off len) := by
  rw [slice_replicate _ inside]
  exact readAt_legacyConstant _ 5 (by omega)

/-- The first leg fails the read, and the mirror answers it from the second. -/
theorem readAt_failingMirror :
    (∃ error, (mirrorLeg 2 0).failing.readAt 100 50 = .error error) ∧
      (legMirror true).readAt 100 50 = .ok (slice (List.replicate 1024 5) 100 50) := by
  refine ⟨⟨_, rfl⟩, ?_⟩
  refine (@readAt_withheldArray _ _ (fun _ => List.replicate 1024 5) (List.replicate 1024 5)
    (assemble_legMirror true) ?_ ?_ 100 50).2 ?_ ?_
  · exact .mirrored rfl List.length_replicate fun _ _ _ => rfl
  · intro slot m found off len inside
    rw [List.length_replicate] at inside
    rcases slot with _ | _ | slot
    · cases found
      intro bytes read
      change (if len = 4096 then _ else _) = _ at read
      rw [if_neg (by omega)] at read
      cases read
    · cases found
      exact (Below.refl _).tells (readAt_mirrorLeg 1 inside)
    · cases found
  · rw [List.length_replicate]
    decide
  · exact .legs rfl ⟨_, List.mem_cons_of_mem _ List.mem_cons_self,
      slice (List.replicate 1024 5) 100 50, readAt_mirrorLeg 1 (by decide)⟩

end DiskPartitions
