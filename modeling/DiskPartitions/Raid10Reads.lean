import DiskPartitions.ParityReads
import DiskPartitions.Raid10Copies

/-!
# RAID10 reads

An array that assembly accepted at level 10 keeps every copy of its chunks at a
place of its own, inside the members, and keeps a present copy of every chunk,
although assembly looked at the first chunks only.  When the copies hold the
chunks of a byte string, reading the array gives the string.
-/

namespace DiskPartitions

open Slices BufferedReads Refusals

/-- A chunk was found with a present copy. -/
theorem copy_of_requireCopies {geo : Raid10} {d : Nat} {slots : List (Option Member)}
    {chunks : List Nat} (passed : requireCopies geo d slots chunks = .ok ()) :
    ∀ c ∈ chunks, ∃ place ∈ geo.copies d c, (slots.getD place.1 none).isSome = true := by
  induction chunks with
  | nil =>
      intro c member
      cases member
  | cons first chunks ih =>
      rw [requireCopies] at passed
      obtain ⟨kept, rest⟩ := refuseIf_bind_eq_ok.mp passed
      intro c member
      obtain rfl | later := List.mem_cons.mp member
      · by_contra lost
        apply kept
        intro place inside
        by_contra there
        rw [Bool.not_eq_true, Option.isNone_eq_false_iff] at there
        exact lost ⟨place, inside, there⟩
      · exact ih rest c later

namespace MdArray

/-- Whole chunks in the array. -/
def chunkCount (array : MdArray) : Nat := array.size / array.chunk

/-- The members' data areas hold every copy of the chunks of a byte string. -/
structure EncodesCopies (array : MdArray) (geo : Raid10) (areas : Nat → List UInt8)
    (data : List UInt8) : Prop where
  length_data : data.length = array.size
  copies : ∀ c < array.chunkCount, ∀ place ∈ geo.copies array.slots.length c,
    slice (areas place.1) (place.2 * array.chunk) array.chunk =
      slice data (c * array.chunk) array.chunk

end MdArray

/-- What assembly guarantees of a RAID10 array. -/
structure CopiesShape (array : MdArray) (geo : Raid10) : Prop where
  near : geo.near = array.layout % 256
  far : geo.far = array.layout / 256 % 256
  offset : geo.offset = (array.layout &&& raid10Offset != 0)
  chunk_pos : 0 < array.chunk
  copies : array.raid10 = some geo
  apart : geo.near * geo.far ≤ array.slots.length
  fits : geo.Fits array.slots.length array.rowCount array.chunkCount
  size : array.size = array.chunkCount * array.chunk
  kept : ∀ c < array.slots.length, ∃ place ∈ geo.copies array.slots.length c,
    array.present place.1 = true

theorem Assembled.copiesShape {array : MdArray} (assembled : Assembled array)
    (level : array.level = levelRaid10) : ∃ geo, CopiesShape array geo := by
  have shaped := assembled.geometry
  have chosen : levelGeometry array.superblock array.slots =
      raid10Geometry array.superblock array.slots := by
    unfold levelGeometry
    rw [← assembled.level, level]
    rfl
  rw [chosen] at shaped
  unfold raid10Geometry needsChunk at shaped
  obtain ⟨chunked, shaped⟩ := refuseIf_bind_eq_ok.mp shaped
  obtain ⟨-, shaped⟩ := refuseIf_bind_eq_ok.mp shaped
  obtain ⟨apart, shaped⟩ := refuseIf_bind_eq_ok.mp shaped
  obtain ⟨_, kept, shaped⟩ := bind_eq_ok.mp shaped
  obtain ⟨-, shaped⟩ := refuseIf_bind_eq_ok.mp shaped
  simp only [Except.ok.injEq, Geometry.mk.injEq] at shaped
  obtain ⟨size, -, copies⟩ := shaped
  rw [← assembled.chunk, ← assembled.members] at size
  rw [← assembled.members] at kept apart
  have chunk_pos : 0 < array.chunk := by
    rw [assembled.chunk]
    omega
  have count : array.chunkCount = array.superblock.componentSize / array.chunk /
      (array.superblock.layout / 256 % 256) * array.slots.length % 2 ^ 64 /
      (array.superblock.layout % 256) := by
    rw [MdArray.chunkCount, ← size, Nat.mul_div_cancel _ chunk_pos]
  refine ⟨_, by rw [assembled.layout], by rw [assembled.layout], by rw [assembled.layout],
    chunk_pos, copies.symm, by dsimp only; omega, ?_, ?_, ?_⟩
  · refine ⟨assembled.some_members, by dsimp only; omega, by dsimp only; omega, ?_, ?_⟩
    · dsimp only
      rw [MdArray.rowCount, assembled.chunk]
    · dsimp only
      rw [count]
      calc _ ≤ array.superblock.componentSize / array.chunk /
            (array.superblock.layout / 256 % 256) * array.slots.length % 2 ^ 64 :=
          Nat.div_mul_le_self _ _
        _ ≤ _ := Nat.mod_le _ _
  · rw [count, size]
  · intro c bounded
    exact copy_of_requireCopies kept c (List.mem_range.mpr bounded)

namespace CopiesShape

variable {array : MdArray} {geo : Raid10} (shape : CopiesShape array geo)
include shape

/-- Every chunk of the array has a present copy: its copies are on the slots of
one of the first chunks. -/
theorem copy_present (c : Nat) :
    ∃ place ∈ geo.copies array.slots.length c, array.present place.1 = true := by
  have early := Nat.mod_lt c shape.fits.members
  obtain ⟨place, member, there⟩ := shape.kept (c % array.slots.length) early
  have slot : place.1 ∈ (geo.copies array.slots.length (c % array.slots.length)).map Prod.fst :=
    List.mem_map_of_mem member
  rw [Raid10.slots_periodic] at slot
  obtain ⟨other, member', same⟩ := List.mem_map.mp slot
  exact ⟨other, member', by rw [same]; exact there⟩

theorem row_lt {c : Nat} (chunk : c < array.chunkCount) {place : Nat × Nat}
    (member : place ∈ geo.copies array.slots.length c) : place.2 < array.rowCount := by
  obtain ⟨i, near, k, far, rfl⟩ := Raid10.mem_copies.mp member
  exact shape.fits.copyRow_lt chunk near far

end CopiesShape

/-- Places that answer with the same bytes or not at all answer with them as soon
as one of them does. -/
theorem readCopies_eq {member : ReadMember} {chunk within len : Nat} {gone : BlockError}
    {bytes : List UInt8} {places : List (Nat × Nat)} (last : Option BlockError)
    (answers : ∀ place ∈ places, member place.1 (place.2 * chunk + within) len = .ok none ∨
      member place.1 (place.2 * chunk + within) len = .ok (some bytes))
    (there : ∃ place ∈ places,
      member place.1 (place.2 * chunk + within) len = .ok (some bytes)) :
    readCopies member chunk within len gone places last = .ok bytes := by
  induction places generalizing last with
  | nil =>
      obtain ⟨place, member, -⟩ := there
      cases member
  | cons first places ih =>
      rw [readCopies]
      obtain absent | read := answers first List.mem_cons_self
      · rw [absent]
        dsimp only
        apply ih last fun place inside => answers place (List.mem_cons_of_mem first inside)
        obtain ⟨place, inside, read⟩ := there
        obtain rfl | later := List.mem_cons.mp inside
        · rw [absent] at read
          cases read
        · exact ⟨place, later, read⟩
      · rw [read]

theorem readChunk_copies {array : MdArray} {geo : Raid10} (shape : CopiesShape array geo)
    {areas : Nat → List UInt8} {data : List UInt8}
    (encoded : array.EncodesCopies geo areas data) (holds : array.HoldsAreas areas)
    {c within len : Nat} (chunk : c < array.chunkCount) (inside : within + len ≤ array.chunk) :
    readChunk array.striping array.readMember c within len =
      .ok (slice data (c * array.chunk + within) len) := by
  obtain ⟨rest, copies⟩ := Raid10.copies_eq_cons (d := array.slots.length) shape.fits.near
    shape.fits.far c
  have tried : geo.primary array.slots.length c ::
      (geo.copies array.slots.length c).drop 1 = geo.copies array.slots.length c := by
    rw [copies]
    rfl
  unfold readChunk
  simp only [MdArray.striping, shape.copies, tried]
  have reads : ∀ place ∈ geo.copies array.slots.length c, array.present place.1 = true →
      array.readMember place.1 (place.2 * array.chunk + within) len =
        .ok (some (slice data (c * array.chunk + within) len)) := by
    intro place member there
    obtain ⟨m, found⟩ := MdArray.present_eq_true there
    have entry : array.slots.getD place.1 none = some m := by
      rw [List.getD_eq_getElem?_getD, found, Option.getD_some]
    have row := shape.row_lt chunk member
    unfold MdArray.readMember
    rw [entry]
    dsimp only
    rw [holds place.1 m found _ _ (MdArray.row_fits row inside), ok_bind, ← slice_slice inside,
      encoded.copies c chunk place member, slice_slice inside]
  apply readCopies_eq
  · intro place member
    cases there : array.present place.1 with
    | true => exact .inr (reads place member there)
    | false =>
        left
        have entry : array.slots.getD place.1 none = none := by
          simpa [MdArray.present] using there
        unfold MdArray.readMember
        rw [entry]
  · obtain ⟨place, member, there⟩ := shape.copy_present c
    exact ⟨place, member, reads place member there⟩

/-- An array assembled at level 10.  Distinct copies of its chunks are at distinct
places, on rows the members have; the copies of one chunk are on as many slots
as there are copies, the primary first; every chunk has a present copy; and when
the copies hold the chunks of a byte string, every read in range returns its
part of the string. -/
theorem readAt_raid10Array {devices : List BlockRead} {array : MdArray}
    (assembled : assemble devices = .ok array) (level : array.level = levelRaid10) :
    ∃ geo, array.raid10 = some geo ∧ geo.near = array.layout % 256 ∧
      geo.far = array.layout / 256 % 256 ∧ geo.offset = (array.layout &&& raid10Offset != 0) ∧
      array.size = array.chunkCount * array.chunk ∧
      (((List.range array.chunkCount).flatMap
            fun c => geo.copies array.slots.length c).Nodup ∧
        ∀ c < array.chunkCount, ∀ place ∈ geo.copies array.slots.length c,
          place.1 < array.slots.length ∧
            place.2 < array.superblock.componentSize / array.chunk) ∧
      (∀ c < array.chunkCount, ((geo.copies array.slots.length c).map Prod.fst).Nodup ∧
        (geo.copies array.slots.length c).length = geo.near * geo.far ∧
        (geo.copies array.slots.length c).head? = some (geo.primary array.slots.length c)) ∧
      (∀ c < array.chunkCount,
        ∃ place ∈ geo.copies array.slots.length c, array.present place.1 = true) ∧
      ∀ areas data, array.EncodesCopies geo areas data → array.HoldsAreas areas →
        ∀ offset len, offset + len ≤ array.size →
          array.readAt offset len = .ok (slice data offset len) := by
  obtain ⟨geo, shape⟩ := (assembled_of_assemble assembled).copiesShape level
  refine ⟨geo, shape.copies, shape.near, shape.far, shape.offset, shape.size,
    ⟨shape.fits.places_nodup shape.apart, ?_⟩, ?_, fun c _ => shape.copy_present c, ?_⟩
  · intro c chunk place member
    refine ⟨?_, shape.row_lt chunk member⟩
    obtain ⟨i, -, k, -, rfl⟩ := Raid10.mem_copies.mp member
    exact Raid10.copySlot_lt shape.fits.members c i k
  · intro c _
    refine ⟨Raid10.slots_nodup shape.apart c, Raid10.length_copies geo _ c, ?_⟩
    obtain ⟨rest, copies⟩ := Raid10.copies_eq_cons (d := array.slots.length) shape.fits.near
      shape.fits.far c
    rw [copies]
    rfl
  · intro areas data encoded holds offset len inside
    have chunk_pos := shape.chunk_pos
    have pieces : ∀ position left, 0 < left → position + left = offset + len →
        ∃ taken, PieceOf data (fun _ => False) position left (array.readPiece position left)
          taken := by
      intro position left some_left ends
      have within := Nat.mod_lt position chunk_pos
      have size := shape.size
      have chunk : position / array.chunk < array.chunkCount := by
        rw [Nat.div_lt_iff_lt_mul chunk_pos]
        omega
      have read := readChunk_copies shape encoded holds chunk
        (by omega : position % array.chunk + min (array.chunk - position % array.chunk) left ≤
          array.chunk)
      rw [Nat.div_add_mod' position array.chunk] at read
      refine ⟨min (array.chunk - position % array.chunk) left, by omega, by omega, ?_, ?_⟩
      · rintro ⟨_, _, _, lost⟩
        exact lost.elim
      · intro _
        exact read
    have reads := (readPieces_spec (by rw [encoded.length_data]; exact inside) pieces
      (Nat.le_refl len) rfl).2 fun _ _ _ => id
    unfold MdArray.readAt
    rw [if_neg (by omega), level, if_neg (by decide), if_neg (by decide)]
    exact reads

/-! ## Two near copies over three members, of which one is lost -/

/-- The superblock of three members with two near copies of each 1 KiB chunk. -/
def raid10Words (slot : Nat) : LegacyWords where
  level := 10
  sizeKib := 2
  raidDisks := 3
  events := 7
  layout := 0x102
  chunkBytes := 1024
  raidDisk := slot
  state := 6

def raid10Member (slot : Nat) : BlockRead := legacyMember (raid10Words slot) fun _ => 5

/-- The array of members 1 and 2. -/
def degradedRaid10 : MdArray where
  slots := [none, some { dev := raid10Member 1, dataOffset := 0, dataSize := 65536 },
    some { dev := raid10Member 2, dataOffset := 0, dataSize := 65536 }]
  level := 10
  layout := 0x102
  chunk := 1024
  size := 3072
  zones := []
  raid10 := some { near := 2, far := 1, offset := false, stride := 2 }
  superblock := (raid10Words 1).superblock

theorem raid10Words_fits {slot : Nat} (small : slot < 3) : (raid10Words slot).Fits := by
  constructor <;> simp [raid10Words]
  omega

theorem assemble_degradedRaid10 :
    assemble [raid10Member 1, raid10Member 2] = .ok degradedRaid10 := by
  have reads : ∀ entry ∈ [(raid10Member 1, (raid10Words 1).superblock),
      (raid10Member 2, (raid10Words 2).superblock)], ∀ member,
      readSuperblockOf entry.1 member = .ok (some entry.2) := by
    intro entry inside member
    simp only [List.mem_cons, List.not_mem_nil, or_false] at inside
    obtain rfl | rfl := inside
    · exact readSuperblockOf_legacyMember (raid10Words_fits (by decide))
        (plainArea_const (by decide)) member
    · exact readSuperblockOf_legacyMember (raid10Words_fits (by decide))
        (plainArea_const (by decide)) member
  have found := readMembers_eq reads
  simp only [List.map_cons, List.map_nil] at found
  unfold assemble
  rw [refuseIf_of_not (by simp), ok_bind, found, ok_bind]
  rfl

/-- A read across the three chunks, the first two of which lost a copy. -/
theorem readAt_degradedRaid10 :
    assemble [raid10Member 1, raid10Member 2] = .ok degradedRaid10 ∧
      degradedRaid10.readAt 1000 1500 = .ok (slice (List.replicate 3072 5) 1000 1500) := by
  refine ⟨assemble_degradedRaid10, ?_⟩
  obtain ⟨geo, copies, -, -, -, -, -, -, -, reads⟩ :=
    readAt_raid10Array assemble_degradedRaid10 rfl
  have copies : geo = { near := 2, far := 1, offset := false, stride := 2 } :=
    (Option.some.inj copies).symm
  have count : degradedRaid10.chunkCount = 3 := by decide
  have width : degradedRaid10.chunk = 1024 := rfl
  have members : degradedRaid10.slots.length = 3 := rfl
  apply reads (fun _ => List.replicate 2048 5) _ ?_ ?_ _ _ (by decide)
  · refine ⟨List.length_replicate, ?_⟩
    rw [count, width, members, copies]
    intro c chunk place member
    have row : ∀ c < 3, ∀ place ∈ Raid10.copies
        { near := 2, far := 1, offset := false, stride := 2 } 3 c, place.2 < 2 := by decide
    have inside := row c chunk place member
    rw [slice_replicate _ (by omega), slice_replicate _ (by omega)]
  · intro slot m found off len inside
    have inside : off + len ≤ 2048 := inside
    match slot with
    | 0 => cases found
    | 1 =>
        cases found
        rw [slice_replicate _ inside]
        exact readAt_legacyConstant _ _ (by omega)
    | 2 =>
        cases found
        rw [slice_replicate _ inside]
        exact readAt_legacyConstant _ _ (by omega)
    | _ + 3 => cases found

end DiskPartitions
