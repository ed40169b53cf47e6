import DiskPartitions.BufferedReads
import DiskPartitions.MdSuperblocks

/-!
# Members with a 0.90 superblock

A device of 128 KiB whose last aligned 64 KiB start with a 0.90 superblock, and
whose first 64 KiB hold array data.  Reading its superblock gives back the
words that were stored, as long as the data does not look like a 1.x
superblock itself.
-/

namespace DiskPartitions

open Slices LittleEndian BufferedReads Refusals

/-- The words of a 0.90 superblock that assembly reads. -/
structure LegacyWords where
  level : Nat
  sizeKib : Nat
  raidDisks : Nat
  events : Nat
  layout : Nat
  chunkBytes : Nat
  raidDisk : Nat
  state : Nat

namespace LegacyWords

def word (words : LegacyWords) (index : Nat) : Nat :=
  if index = 0 then mdMagic
  else if index = 2 then 90
  else if index = 7 then words.level
  else if index = 8 then words.sizeKib
  else if index = 10 then words.raidDisks
  else if index = 39 then words.events
  else if index = 64 then words.layout
  else if index = 65 then words.chunkBytes
  else if index = 995 then words.raidDisk
  else if index = 996 then words.state
  else 0

/-- Every word fits its field. -/
structure Fits (words : LegacyWords) : Prop where
  level : words.level < 2 ^ 32
  sizeKib : words.sizeKib ≤ 64
  raidDisks : words.raidDisks < 2 ^ 32
  events : words.events < 2 ^ 32
  layout : words.layout < 2 ^ 32
  chunkBytes : words.chunkBytes < 2 ^ 32
  raidDisk : words.raidDisk < 2 ^ 32
  state : words.state < 2 ^ 32

theorem Fits.word_lt {words : LegacyWords} (fits : words.Fits) (index : Nat) :
    words.word index < 256 ^ 4 := by
  have := fits.level
  have := fits.sizeKib
  have := fits.raidDisks
  have := fits.events
  have := fits.layout
  have := fits.chunkBytes
  have := fits.raidDisk
  have := fits.state
  unfold word mdMagic
  repeat' split
  all_goals omega

/-- The superblock as assembly decodes it. -/
def superblock (words : LegacyWords) : MdSuperblock where
  version := .v0_90
  superblockOffset := 65536
  arrayUuid := List.replicate 16 0
  level := signed32 words.level
  layout := words.layout
  chunkBytes := words.chunkBytes
  raidDisks := words.raidDisks
  role := v0Role words.state words.raidDisk
  dataOffset := 0
  dataSize := 65536
  componentSize := words.sizeKib * 1024
  events := words.events
  featureMap := 0

end LegacyWords

/-- A byte of the device: data, then the words of the superblock. -/
def legacyByte (words : LegacyWords) (area : Nat → UInt8) (place : Nat) : UInt8 :=
  if place < 65536 then area place
  else UInt8.ofNat (words.word ((place - 65536) / 4) / 256 ^ ((place - 65536) % 4) % 256)

/-- The device. -/
def legacyMember (words : LegacyWords) (area : Nat → UInt8) : BlockRead where
  sizeBytes := 131072
  readAt offset len :=
    if offset + len ≤ 131072 then .ok (buffer len fun j => legacyByte words area (offset + j))
    else .error (.shortRead offset len (131072 - offset))
  length_readAt := by
    intro offset len bytes read
    split at read
    · cases read
      exact length_buffer len _
    · cases read

theorem readMd_legacyMember {words : LegacyWords} {area : Nat → UInt8} {offset len : Nat}
    (inside : offset + len ≤ 131072) :
    (legacyMember words area).readMd offset len =
      .ok (buffer len fun j => legacyByte words area (offset + j)) := by
  unfold BlockRead.readMd legacyMember
  dsimp only
  rw [if_pos inside]
  rfl

/-- The bytes of a word, one by one. -/
theorem encode_four (value : Nat) :
    encode 4 value = buffer 4 fun j => UInt8.ofNat (value / 256 ^ j % 256) := by
  have squared : value / 256 / 256 = value / 65536 := by rw [Nat.div_div_eq_div_mul]
  have cubed : value / 65536 / 256 = value / 16777216 := by rw [Nat.div_div_eq_div_mul]
  simp [encode, buffer, List.range_succ, squared, cubed]

/-- The bytes of the superblock. -/
def legacyBlock (words : LegacyWords) (area : Nat → UInt8) : List UInt8 :=
  buffer 4096 fun j => legacyByte words area (65536 + j)

theorem slice_legacyBlock {words : LegacyWords} (area : Nat → UInt8) {index : Nat}
    (inside : index < 1024) :
    slice (legacyBlock words area) (index * 4) 4 = encode 4 (words.word index) := by
  unfold legacyBlock
  rw [slice_buffer _ (by omega), encode_four]
  apply buffer_congr
  intro j within
  unfold legacyByte
  rw [if_neg (by omega)]
  have quotient : (65536 + (index * 4 + j) - 65536) / 4 = index := by omega
  have remainder : (65536 + (index * 4 + j) - 65536) % 4 = j := by omega
  rw [quotient, remainder]

theorem field_legacyBlock {words : LegacyWords} (fits : words.Fits) (area : Nat → UInt8)
    {index : Nat} (inside : index < 1024) :
    field (legacyBlock words area) (index * 4) 4 = words.word index := by
  rw [field, slice_legacyBlock area inside, decode_encode (fits.word_lt index)]

theorem decode_append (first second : List UInt8) :
    decode (first ++ second) = decode first + 256 ^ first.length * decode second := by
  induction first with
  | nil => simp [decode]
  | cons byte first ih =>
      rw [List.cons_append, decode, decode, ih, List.length_cons, pow_succ]
      ring

theorem events_legacyBlock {words : LegacyWords} (fits : words.Fits) (area : Nat → UInt8) :
    field (legacyBlock words area) (39 * 4) 8 = words.events := by
  have halves : slice (legacyBlock words area) (39 * 4) 8 =
      encode 4 (words.word 39) ++ encode 4 (words.word 40) := by
    rw [← slice_legacyBlock area (by decide : 39 < 1024),
      ← slice_legacyBlock area (by decide : 40 < 1024)]
    exact (slice_append_slice (legacyBlock words area) (39 * 4) 4 4).symm
  rw [field, halves, decode_append, decode_encode (fits.word_lt 39),
    decode_encode (fits.word_lt 40)]
  rfl

theorem parseV0_legacyBlock {words : LegacyWords} (fits : words.Fits) (area : Nat → UInt8)
    (member : Nat) :
    parseV0 (legacyBlock words area) 65536 member = .ok (some words.superblock) := by
  have small := fits.sizeKib
  have stored : ∀ index, index < 1024 →
      field (legacyBlock words area) (index * 4) 4 = words.word index :=
    fun index inside => field_legacyBlock fits area inside
  have zeros : ∀ index, index < 1024 → words.word index = 0 →
      slice (legacyBlock words area) (index * 4) 4 = [0, 0, 0, 0] := by
    intro index inside zero
    rw [slice_legacyBlock area inside, zero]
    rfl
  have uuid : ([5, 13, 14, 15].flatMap fun index =>
      slice (legacyBlock words area) (index * 4) 4) = List.replicate 16 0 := by
    simp only [List.flatMap_cons, List.flatMap_nil]
    rw [zeros 5 (by decide) rfl, zeros 13 (by decide) rfl, zeros 14 (by decide) rfl,
      zeros 15 (by decide) rfl]
    rfl
  have counted := events_legacyBlock fits area
  generalize legacyBlock words area = block at stored uuid counted ⊢
  have genuine : ¬ (field block (0 * 4) 4 ≠ mdMagic ∨ field block (1 * 4) 4 ≠ 0 ∨
      field block (2 * 4) 4 ≠ 90) := by
    rw [stored 0 (by decide), stored 1 (by decide), stored 2 (by decide)]
    simp [LegacyWords.word]
  have before : ¬ 65536 < field block (8 * 4) 4 * 1024 := by
    rw [stored 8 (by decide)]
    change ¬ 65536 < words.sizeKib * 1024
    omega
  unfold parseV0
  dsimp only
  rw [if_neg genuine, refuseIf_of_not before, ok_bind, uuid, counted, stored 8 (by decide),
    stored 7 (by decide), stored 64 (by decide), stored 65 (by decide), stored 10 (by decide),
    stored (992 + 4) (by decide), stored (992 + 3) (by decide)]
  rfl

/-- Data that does not start like a 1.x superblock where one could be. -/
def PlainArea (area : Nat → UInt8) : Prop :=
  ∀ place, place = 0 ∨ place = 4096 →
    decode (buffer 4 fun j => area (place + j)) ≠ mdMagic

/-- Nothing on the device looks like a 1.x superblock. -/
theorem firstV1_legacyMember (words : LegacyWords) {area : Nat → UInt8} (plain : PlainArea area)
    (member : Nat) :
    firstV1 (legacyMember words area) member
      (v1Candidates (legacyMember words area).sizeBytes.toNat) = .ok none := by
  have size : (legacyMember words area).sizeBytes.toNat = 131072 := rfl
  have skipped : ∀ place version rest, place + 4096 ≤ 131072 →
      field (buffer 4096 fun j => legacyByte words area (place + j)) 0 4 ≠ mdMagic →
      firstV1 (legacyMember words area) member ((place, version) :: rest) =
        firstV1 (legacyMember words area) member rest := by
    intro place version rest inside other
    rw [firstV1, size, if_neg (by omega), readMd_legacyMember inside, ok_bind, parseV1,
      if_pos (.inl other), ok_bind]
  have head : ∀ place, place = 0 ∨ place = 4096 →
      field (buffer 4096 fun j => legacyByte words area (place + j)) 0 4 ≠ mdMagic := by
    intro place either
    rw [field, slice_buffer _ (by decide)]
    have same : (buffer 4 fun j => legacyByte words area (place + (0 + j))) =
        buffer 4 fun j => area (place + j) := by
      apply buffer_congr
      intro j within
      rw [legacyByte, if_pos (by omega), Nat.zero_add]
    rw [same]
    exact plain place either
  have tail : field (buffer 4096 fun j => legacyByte words area (122880 + j)) 0 4 ≠ mdMagic := by
    rw [field, slice_buffer _ (by decide)]
    have same : (buffer 4 fun j => legacyByte words area (122880 + (0 + j))) =
        buffer 4 fun _ => 0 := by
      apply buffer_congr
      intro j within
      have beyond : words.word ((122880 + (0 + j) - 65536) / 4) = 0 := by
        have quotient : (122880 + (0 + j) - 65536) / 4 = 14336 := by omega
        rw [quotient]
        rfl
      rw [legacyByte, if_neg (by omega), beyond, Nat.zero_div]
      rfl
    rw [same]
    decide
  have places : v1Candidates (legacyMember words area).sizeBytes.toNat =
      [(0, .v1_1), (4096, .v1_2), (122880, .v1_0)] := by
    rw [size]
    decide
  rw [places, skipped 0 _ _ (by decide) (head 0 (.inl rfl)),
    skipped 4096 _ _ (by decide) (head 4096 (.inr rfl)), skipped 122880 _ _ (by decide) tail]
  rfl

/-- The device's superblock is the one that was stored. -/
theorem readSuperblockOf_legacyMember {words : LegacyWords} (fits : words.Fits)
    {area : Nat → UInt8} (plain : PlainArea area) (member : Nat) :
    readSuperblockOf (legacyMember words area) member = .ok (some words.superblock) := by
  have size : (legacyMember words area).sizeBytes.toNat = 131072 := rfl
  unfold readSuperblockOf
  dsimp only
  rw [firstV1_legacyMember words plain member, ok_bind]
  dsimp only
  rw [size, if_pos (by decide)]
  have place : 131072 / v0Reserved * v0Reserved - v0Reserved = 65536 := by decide
  rw [place, readMd_legacyMember (by decide), ok_bind]
  exact parseV0_legacyBlock fits area member

/-! ## Members that hold one byte throughout -/

theorem plainArea_const {byte : UInt8} (other : decode [byte, byte, byte, byte] ≠ mdMagic) :
    PlainArea fun _ => byte :=
  fun _ _ => other

theorem readAt_legacyConstant (words : LegacyWords) (byte : UInt8) {offset len : Nat}
    (inside : offset + len ≤ 65536) :
    (legacyMember words fun _ => byte).readAt (0 + offset) len =
      .ok (List.replicate len byte) := by
  have constant : (buffer len fun j => legacyByte words (fun _ => byte) (0 + offset + j)) =
      List.replicate len byte := by
    rw [replicate_eq_buffer]
    apply buffer_congr
    intro j within
    exact if_pos (by omega)
  unfold legacyMember
  dsimp only
  rw [if_pos (by omega), constant]

end DiskPartitions
