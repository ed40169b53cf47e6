import DiskPartitions.MdSuperblocks

/-!
# Superblocks as they are written

A 1.x superblock is written as its fields in order, the checksum over them and a role table of one
device; a 0.90 superblock is written as its words.  The superblocks that a device of some size can
be read as are those whose fields fit their block and whose place is on the device; each of them is
read from a device that holds nothing but its block.
-/

namespace DiskPartitions

open Slices LittleEndian Refusals

/-! ## Writing -/

/-- What the role table holds for a role. -/
def MdRole.code : MdRole → Nat
  | .spare => 0xffff
  | .faulty => 0xfffe
  | .journal => 0xfffd
  | .active slot => slot

/-- Bytes that the reader does not look at. -/
def unread (width : Nat) : List UInt8 := List.replicate width 0

@[simp] theorem length_unread (width : Nat) : (unread width).length = width := by
  rw [unread, List.length_replicate]

/-- The fields before the checksum. -/
def v1Head (sb : MdSuperblock) : List (List UInt8) :=
  [encode 4 mdMagic, encode 4 1, encode 4 sb.featureMap, encode 4 0, sb.arrayUuid,
    unread 40, encode 4 (sb.level % 2 ^ 32).toNat, encode 4 sb.layout,
    encode 8 (sb.componentSize / mdSector), encode 4 (sb.chunkBytes / mdSector),
    encode 4 sb.raidDisks, unread 32, encode 8 (sb.dataOffset / mdSector),
    encode 8 (sb.dataSize / mdSector), encode 8 (sb.superblockOffset / mdSector),
    unread 8, encode 4 0, unread 36, encode 8 sb.events, unread 8]

/-- How many devices the role table has, and the role of the first. -/
def v1Last (sb : MdSuperblock) : List (List UInt8) :=
  [encode 4 1, unread 32, encode 2 sb.role.code]

/-- What the checksum is over, with a number in the place of the checksum. -/
def v1Covered (sb : MdSuperblock) (sum : Nat) : List (List UInt8) :=
  v1Head sb ++ encode 4 sum :: v1Last sb

/-- The parts with their checksum, which is taken over zeros in its own place. -/
def v1Parts (sb : MdSuperblock) : List (List UInt8) :=
  v1Covered sb (v1Checksum (v1Covered sb 0).flatten)

def MdSuperblock.v1Block (sb : MdSuperblock) : List UInt8 :=
  (v1Parts sb).flatten ++ unread 3838

/-! ## What can be decoded -/

/-- A superblock at a place of a device of `devSize` bytes, its fields within their words. -/
structure MdSuperblock.Held (sb : MdSuperblock) (place : Nat) (version : MdVersion)
    (devSize : Nat) : Prop where
  version : sb.version = version
  offset : sb.superblockOffset = place
  place : mdSector ∣ place ∧ place / mdSector < 2 ^ 64
  uuid : sb.arrayUuid.length = 16
  level : -2 ^ 31 ≤ sb.level ∧ sb.level < 2 ^ 31
  layout : sb.layout < 2 ^ 32
  chunk : mdSector ∣ sb.chunkBytes ∧ sb.chunkBytes / mdSector < 2 ^ 32
  disks : sb.raidDisks < 2 ^ 32
  role : ∀ slot, sb.role = .active slot → slot < 0xfffd
  dataOffset : mdSector ∣ sb.dataOffset ∧ sb.dataOffset < 2 ^ 64
  dataSize : mdSector ∣ sb.dataSize ∧ sb.dataSize < 2 ^ 64
  inside : sb.dataOffset + sb.dataSize ≤ devSize
  component : mdSector ∣ sb.componentSize ∧ sb.componentSize < 2 ^ 64
  events : sb.events < 2 ^ 64
  features : sb.featureMap < 2 ^ 32

/-! ## The checksum -/

/-- The checksum is over the words that are not its own. -/
theorem v1Checksum_congr {first second : List UInt8} (length : first.length = second.length)
    (words : ∀ word, word * 4 ≠ 216 → field first (word * 4) 4 = field second (word * 4) 4)
    (last : field first (first.length / 4 * 4) 2 = field second (first.length / 4 * 4) 2) :
    v1Checksum first = v1Checksum second := by
  have steps : (fun (sum word : Nat) => if word * 4 ≠ 216 then sum + field first (word * 4) 4
      else sum) = fun sum word => if word * 4 ≠ 216 then sum + field second (word * 4) 4
      else sum := by
    funext sum word
    split
    next other => rw [words word other]
    next => rfl
  unfold v1Checksum
  dsimp only
  rw [steps, last, length]

theorem v1Checksum_lt (bytes : List UInt8) : v1Checksum bytes < 2 ^ 32 := by
  unfold v1Checksum
  exact Nat.mod_lt _ (by decide)

/-- A field that lies before or after a part does not depend on it. -/
theorem field_around {front back : List (List UInt8)} {own other : List UInt8}
    (length : own.length = other.length) {offset width : Nat}
    (apart : offset + width ≤ front.flatten.length ∨
      front.flatten.length + own.length ≤ offset) :
    field (front ++ own :: back).flatten offset width =
      field (front ++ other :: back).flatten offset width := by
  rw [List.flatten_append, List.flatten_cons, List.flatten_append, List.flatten_cons]
  rcases apart with before | behind
  · rw [field, field, slice_append_left before, slice_append_left before]
  · rw [field_append_right (by omega), field_append_right (by omega),
      field_append_right (by omega), field_append_right (by omega), length]

/-- A part of a block, found by the lengths of those before it. -/
theorem slice_part {parts : List (List UInt8)} {index offset width : Nat} {own : List UInt8}
    (found : parts[index]? = some own) (place : (parts.take index).flatten.length = offset)
    (length : own.length = width) : slice parts.flatten offset width = own := by
  obtain ⟨inside, same⟩ := List.getElem?_eq_some_iff.mp found
  have whole : parts = parts.take index ++ own :: parts.drop (index + 1) := by
    rw [← same, List.getElem_cons_drop, List.take_append_drop]
  have read := slice_full own
  rw [length] at read
  rw [whole, List.flatten_append, List.flatten_cons, slice_append_right (Nat.le_of_eq place), place,
    Nat.sub_self, slice_append_left (by omega), read]

theorem length_v1Head {sb : MdSuperblock} (uuid : sb.arrayUuid.length = 16) :
    (v1Head sb).flatten.length = 216 := by
  simp [v1Head, uuid]

/-- What stands before the role table. -/
theorem length_v1Roles {sb : MdSuperblock} (uuid : sb.arrayUuid.length = 16) (sum : Nat) :
    ((v1Covered sb sum).take 23).flatten.length = 256 := by
  have front : (v1Covered sb sum).take 23 =
      v1Head sb ++ [encode 4 sum, encode 4 1, unread 32] := rfl
  rw [front, List.flatten_append, List.length_append, length_v1Head uuid]
  simp

theorem length_v1Covered {sb : MdSuperblock} (uuid : sb.arrayUuid.length = 16) (sum : Nat) :
    (v1Covered sb sum).flatten.length = 258 := by
  rw [v1Covered, List.flatten_append, List.flatten_cons, List.length_append, List.length_append,
    length_v1Head uuid]
  simp [v1Last]

theorem v1Checksum_v1Covered {sb : MdSuperblock} (uuid : sb.arrayUuid.length = 16) (sum : Nat) :
    v1Checksum (v1Covered sb sum).flatten = v1Checksum (v1Covered sb 0).flatten := by
  have head := length_v1Head uuid
  have around : ∀ offset width, offset + width ≤ 216 ∨ 220 ≤ offset →
      field (v1Covered sb sum).flatten offset width =
        field (v1Covered sb 0).flatten offset width := by
    intro offset width apart
    refine field_around ?_ ?_
    · rw [length_encode, length_encode]
    · rw [head, length_encode]
      exact apart
  apply v1Checksum_congr
  · rw [length_v1Covered uuid, length_v1Covered uuid]
  · intro word other
    exact around (word * 4) 4 (by omega)
  · rw [length_v1Covered uuid]
    exact around _ 2 (by decide)

/-! ## Decoding -/

theorem length_v1Parts {sb : MdSuperblock} (uuid : sb.arrayUuid.length = 16) :
    (v1Parts sb).flatten.length = 258 := length_v1Covered uuid _

/-- A part that the checksum is over. -/
theorem part_v1Block {sb : MdSuperblock} (uuid : sb.arrayUuid.length = 16) (index : Nat)
    {offset width : Nat} {own : List UInt8} (found : (v1Parts sb)[index]? = some own)
    (place : ((v1Parts sb).take index).flatten.length = offset) (length : own.length = width)
    (inside : offset + width ≤ 258) : slice sb.v1Block offset width = own := by
  rw [MdSuperblock.v1Block, slice_append_left (by rw [length_v1Parts uuid]; exact inside)]
  exact slice_part found place length

theorem field_v1Block {sb : MdSuperblock} (uuid : sb.arrayUuid.length = 16) (index : Nat)
    {offset width value : Nat} (found : (v1Parts sb)[index]? = some (encode width value))
    (place : ((v1Parts sb).take index).flatten.length = offset) (bounded : value < 256 ^ width)
    (inside : offset + width ≤ 258) : field sb.v1Block offset width = value :=
  field_of_slice (part_v1Block uuid index found place (length_encode width value) inside) bounded

theorem slice_v1Block {sb : MdSuperblock} (uuid : sb.arrayUuid.length = 16) :
    slice sb.v1Block 0 258 = (v1Parts sb).flatten := by
  have whole := slice_full (v1Parts sb).flatten
  rw [length_v1Parts uuid] at whole
  rw [MdSuperblock.v1Block, slice_append_left (by rw [length_v1Parts uuid]), whole]

theorem length_v1Block {sb : MdSuperblock} (uuid : sb.arrayUuid.length = 16) :
    sb.v1Block.length = 4096 := by
  rw [MdSuperblock.v1Block, List.length_append, length_v1Parts uuid, length_unread]

theorem roleOf_code {role : MdRole} (slots : ∀ slot, role = .active slot → slot < 0xfffd) :
    roleOf role.code = role ∧ role.code < 256 ^ 2 := by
  cases role with
  | active slot =>
      have small := slots slot rfl
      change roleOf slot = _ ∧ slot < _
      unfold roleOf
      rw [if_neg (by omega), if_neg (by omega), if_neg (by omega)]
      exact ⟨rfl, by omega⟩
  | spare => exact ⟨rfl, by decide⟩
  | faulty => exact ⟨rfl, by decide⟩
  | journal => exact ⟨rfl, by decide⟩

theorem active_of_roleOf {value slot : Nat} (bounded : value < 256 ^ 2)
    (active : roleOf value = .active slot) : slot < 0xfffd := by
  unfold roleOf at active
  split at active
  next => cases active
  next spare =>
    split at active
    next => cases active
    next faulty =>
      split at active
      next => cases active
      next journal =>
        cases active
        omega

theorem signed32_emod {level : Int} (least : -2 ^ 31 ≤ level) (most : level < 2 ^ 31) :
    signed32 (level % 2 ^ 32).toNat = level := by
  unfold signed32
  split
  next => omega
  next => omega

theorem le_signed32 {value : Nat} (bounded : value < 256 ^ 4) :
    -2 ^ 31 ≤ signed32 value ∧ signed32 value < 2 ^ 31 := by
  unfold signed32
  split
  next => omega
  next => omega

theorem sectorsToBytes_eq_ok {member sectors bytes : Nat} {what : String}
    (read : sectorsToBytes member sectors what = .ok bytes) :
    mdSector ∣ bytes ∧ bytes < 2 ^ 64 := by
  unfold sectorsToBytes at read
  split at read
  next small =>
    cases read
    exact ⟨Nat.dvd_mul_left mdSector sectors, small⟩
  next => cases read

theorem sectorsToBytes_of {bytes : Nat} (whole : mdSector ∣ bytes ∧ bytes < 2 ^ 64) (member : Nat)
    (what : String) : sectorsToBytes member (bytes / mdSector) what = .ok bytes := by
  unfold sectorsToBytes
  rw [Nat.div_mul_cancel whole.1, if_pos whole.2]

/-- What is decoded is held at its place. -/
theorem held_of_parseV1 {buf : List UInt8} (length : 32 ≤ buf.length) {place devSize member : Nat}
    {version : MdVersion} {sb : MdSuperblock}
    (parsed : parseV1 buf place version devSize member = .ok (some sb)) :
    sb.Held place version devSize := by
  unfold parseV1 at parsed
  split at parsed
  next => cases parsed
  next =>
    split at parsed
    next => cases parsed
    next placed =>
      obtain ⟨_, parsed⟩ := refuseIf_bind_eq_ok.mp parsed
      obtain ⟨_, parsed⟩ := refuseIf_bind_eq_ok.mp parsed
      obtain ⟨dataOffset, starts, parsed⟩ := bind_eq_ok.mp parsed
      obtain ⟨dataSize, sizes, parsed⟩ := bind_eq_ok.mp parsed
      obtain ⟨componentSize, component, parsed⟩ := bind_eq_ok.mp parsed
      obtain ⟨inside, parsed⟩ := refuseIf_bind_eq_ok.mp parsed
      obtain ⟨_, parsed⟩ := refuseIf_bind_eq_ok.mp parsed
      cases parsed
      rw [not_not] at placed
      have sectors := field_lt buf 144 8
      have chunk := field_lt buf 88 4
      exact {
        version := rfl
        offset := rfl
        place := by
          rw [← placed, Nat.mul_div_cancel _ (by decide)]
          exact ⟨Nat.dvd_mul_left mdSector _, sectors⟩
        uuid := length_slice (by omega)
        level := le_signed32 (field_lt buf 72 4)
        layout := field_lt buf 76 4
        chunk := by
          dsimp only
          rw [Nat.mul_div_cancel _ (by decide)]
          exact ⟨Nat.dvd_mul_left mdSector _, chunk⟩
        disks := field_lt buf 92 4
        role := fun slot active => active_of_roleOf (field_lt buf _ 2) active
        dataOffset := sectorsToBytes_eq_ok starts
        dataSize := sectorsToBytes_eq_ok sizes
        inside := Nat.not_lt.mp inside
        component := sectorsToBytes_eq_ok component
        events := field_lt buf 200 8
        features := field_lt buf 8 4 }

/-- A superblock is decoded from its own block. -/
theorem parseV1_of_held {sb : MdSuperblock} {place devSize : Nat} {version : MdVersion}
    (held : sb.Held place version devSize) (member : Nat) :
    parseV1 sb.v1Block place version devSize member = .ok (some sb) := by
  have uuid := held.uuid
  obtain ⟨role, code⟩ := roleOf_code held.role
  have signed : (sb.level % 2 ^ 32).toNat < 256 ^ 4 := by omega
  have sectors {bytes : Nat} (whole : mdSector ∣ bytes ∧ bytes < 2 ^ 64) :
      bytes / mdSector < 256 ^ 8 := Nat.lt_of_le_of_lt (Nat.div_le_self _ _) whole.2
  have magic : field sb.v1Block 0 4 = mdMagic :=
    field_v1Block uuid 0 rfl (by simp [v1Parts, v1Covered, v1Head])
      (by decide) (by decide)
  have major : field sb.v1Block 4 4 = 1 :=
    field_v1Block uuid 1 rfl (by simp [v1Parts, v1Covered, v1Head])
      (by decide) (by decide)
  have features : field sb.v1Block 8 4 = sb.featureMap :=
    field_v1Block uuid 2 rfl (by simp [v1Parts, v1Covered, v1Head])
      held.features (by decide)
  have level : field sb.v1Block 72 4 = (sb.level % 2 ^ 32).toNat :=
    field_v1Block uuid 6 rfl (by simp [v1Parts, v1Covered, v1Head, uuid])
      signed (by decide)
  have layout : field sb.v1Block 76 4 = sb.layout :=
    field_v1Block uuid 7 rfl (by simp [v1Parts, v1Covered, v1Head, uuid])
      held.layout (by decide)
  have component : field sb.v1Block 80 8 = sb.componentSize / mdSector :=
    field_v1Block uuid 8 rfl (by simp [v1Parts, v1Covered, v1Head, uuid])
      (sectors held.component) (by decide)
  have chunk : field sb.v1Block 88 4 = sb.chunkBytes / mdSector :=
    field_v1Block uuid 9 rfl (by simp [v1Parts, v1Covered, v1Head, uuid])
      held.chunk.2 (by decide)
  have disks : field sb.v1Block 92 4 = sb.raidDisks :=
    field_v1Block uuid 10 rfl (by simp [v1Parts, v1Covered, v1Head, uuid])
      held.disks (by decide)
  have dataOffset : field sb.v1Block 128 8 = sb.dataOffset / mdSector :=
    field_v1Block uuid 12 rfl (by simp [v1Parts, v1Covered, v1Head, uuid])
      (sectors held.dataOffset) (by decide)
  have dataSize : field sb.v1Block 136 8 = sb.dataSize / mdSector :=
    field_v1Block uuid 13 rfl (by simp [v1Parts, v1Covered, v1Head, uuid])
      (sectors held.dataSize) (by decide)
  have located : field sb.v1Block 144 8 = sb.superblockOffset / mdSector :=
    field_v1Block uuid 14 rfl (by simp [v1Parts, v1Covered, v1Head, uuid])
      (held.offset ▸ held.place.2) (by decide)
  have devNumber : field sb.v1Block 160 4 = 0 :=
    field_v1Block uuid 16 rfl (by simp [v1Parts, v1Covered, v1Head, uuid])
      (by decide) (by decide)
  have events : field sb.v1Block 200 8 = sb.events :=
    field_v1Block uuid 18 rfl (by simp [v1Parts, v1Covered, v1Head, uuid])
      held.events (by decide)
  have stored : field sb.v1Block 216 4 = v1Checksum (v1Covered sb 0).flatten :=
    field_v1Block uuid 20 rfl (by simp [v1Parts, v1Covered, v1Head, uuid])
      (v1Checksum_lt _) (by decide)
  have maxDev : field sb.v1Block 220 4 = 1 :=
    field_v1Block uuid 21 rfl (by simp [v1Parts, v1Covered, v1Head, v1Last, uuid])
      (by decide) (by decide)
  have own : field sb.v1Block 256 2 = sb.role.code :=
    field_v1Block uuid 23 rfl (length_v1Roles uuid _) code (by decide)
  have array : slice sb.v1Block 16 16 = sb.arrayUuid :=
    part_v1Block uuid 4 rfl (by simp [v1Parts, v1Covered, v1Head]) uuid (by decide)
  have summed : v1Checksum (slice sb.v1Block 0 (v1Fixed + 2 * 1)) =
      v1Checksum (v1Covered sb 0).flatten := by
    rw [show v1Fixed + 2 * 1 = 258 from rfl, slice_v1Block uuid, v1Parts, v1Checksum_v1Covered uuid]
  have offset : sb.superblockOffset / mdSector * mdSector = place := by
    rw [held.offset, Nat.div_mul_cancel held.place.1]
  have known : ¬ (mdMagic ≠ mdMagic ∨ 1 ≠ 1) := not_or.mpr ⟨not_not.mpr rfl, not_not.mpr rfl⟩
  unfold parseV1
  rw [magic, major, if_neg known, located, offset, if_neg (not_not.mpr rfl)]
  simp only [maxDev, stored, summed]
  rw [refuseIf_of_not (by decide), ok_bind, refuseIf_of_not (not_not.mpr rfl), ok_bind, dataOffset,
    sectorsToBytes_of held.dataOffset, ok_bind, dataSize, sectorsToBytes_of held.dataSize, ok_bind,
    component, sectorsToBytes_of held.component, ok_bind,
    refuseIf_of_not (Nat.not_lt.mpr held.inside), ok_bind, devNumber,
    refuseIf_of_not (by decide), ok_bind]
  rw [array, level, layout, chunk, disks, show v1Fixed + 2 * 0 = 256 from rfl, own, role, events,
    features, signed32_emod held.level.1 held.level.2, Nat.div_mul_cancel held.chunk.1,
    ← held.version, ← held.offset]

/-! ## The superblock of a device -/

/-- A block that is none of a place's superblocks is none under any version. -/
theorem parseV1_eq_none {buf : List UInt8} {place devSize member : Nat} {version : MdVersion}
    (none : parseV1 buf place version devSize member = .ok none) (other : MdVersion) :
    parseV1 buf place other devSize member = .ok .none := by
  unfold parseV1 at none ⊢
  split at none
  next unknown => rw [if_pos unknown]
  next known =>
    split at none
    next elsewhere => rw [if_neg known, if_pos elsewhere]
    next =>
      obtain ⟨_, none⟩ := refuseIf_bind_eq_ok.mp none
      obtain ⟨_, none⟩ := refuseIf_bind_eq_ok.mp none
      obtain ⟨_, _, none⟩ := bind_eq_ok.mp none
      obtain ⟨_, _, none⟩ := bind_eq_ok.mp none
      obtain ⟨_, _, none⟩ := bind_eq_ok.mp none
      obtain ⟨_, none⟩ := refuseIf_bind_eq_ok.mp none
      obtain ⟨_, none⟩ := refuseIf_bind_eq_ok.mp none
      cases none

theorem readMd_of_le {dev : ByteDevice} {offset len : Nat}
    (inside : offset + len ≤ dev.bytes.length) :
    dev.toBlockRead.readMd offset len = .ok (slice dev.bytes offset len) := by
  unfold BlockRead.readMd
  change (dev.readAt offset len).mapError _ = _
  rw [ByteDevice.readAt_of_le inside]
  rfl

/-- The superblock that is found is the first of the places that hold one. -/
theorem firstV1_eq_ok {dev : ByteDevice} {member : Nat} {places : List (Nat × MdVersion)}
    {sb : MdSuperblock} :
    firstV1 dev.toBlockRead member places = .ok (some sb) ↔
      ∃ before place version after, places = before ++ (place, version) :: after ∧
        place + 4096 ≤ dev.bytes.length ∧
        parseV1 (slice dev.bytes place 4096) place version dev.bytes.length member =
          .ok (some sb) ∧
        ∀ other ∈ before, other.1 + 4096 ≤ dev.bytes.length →
          parseV1 (slice dev.bytes other.1 4096) other.1 other.2 dev.bytes.length member =
            .ok none := by
  have size : dev.toBlockRead.sizeBytes.toNat = dev.bytes.length := dev.toNat_sizeBytes
  induction places with
  | nil =>
      constructor
      · intro found
        cases found
      · rintro ⟨before, place, version, after, same, _⟩
        cases before with
        | nil => cases same
        | cons head tail => cases same
  | cons first rest ih =>
      obtain ⟨start, kind⟩ := first
      rw [firstV1, size]
      by_cases past : dev.bytes.length < start + 4096
      · rw [if_pos past]
        refine ih.trans ?_
        constructor
        · rintro ⟨before, place, version, after, rfl, fits, parsed, none⟩
          refine ⟨(start, kind) :: before, place, version, after, rfl, fits, parsed, ?_⟩
          rw [List.forall_mem_cons]
          exact ⟨fun inside => absurd past (Nat.not_lt.mpr inside), none⟩
        · rintro ⟨before, place, version, after, same, fits, parsed, none⟩
          cases before with
          | nil =>
              cases same
              exact absurd past (Nat.not_lt.mpr fits)
          | cons head tail =>
              cases same
              rw [List.forall_mem_cons] at none
              exact ⟨tail, place, version, after, rfl, fits, parsed, none.2⟩
      · rw [if_neg past, readMd_of_le (Nat.not_lt.mp past), ok_bind]
        constructor
        · intro found
          obtain ⟨own, parsed, found⟩ := bind_eq_ok.mp found
          cases own with
          | some own =>
              cases found
              exact ⟨[], start, kind, rest, rfl, Nat.not_lt.mp past, parsed, by simp⟩
          | none =>
              obtain ⟨before, place, version, after, rfl, fits, later, none⟩ := ih.mp found
              refine ⟨(start, kind) :: before, place, version, after, rfl, fits, later, ?_⟩
              rw [List.forall_mem_cons]
              exact ⟨fun _ => parsed, none⟩
        · rintro ⟨before, place, version, after, same, fits, parsed, none⟩
          cases before with
          | nil =>
              cases same
              rw [parsed, ok_bind]
          | cons head tail =>
              cases same
              rw [List.forall_mem_cons] at none
              rw [none.1 (Nat.not_lt.mp past), ok_bind]
              exact ih.mpr ⟨tail, place, version, after, rfl, fits, parsed, none.2⟩

/-- A 1.x superblock that can be read from a device of `size` bytes: at one of the places for it,
which is no earlier version's place. -/
structure MdSuperblock.Placed (sb : MdSuperblock) (size : Nat) : Prop where
  candidate : (sb.superblockOffset, sb.version) ∈ v1Candidates size
  inside : sb.superblockOffset + 4096 ≤ size
  held : sb.Held sb.superblockOffset sb.version size
  own : sb.version = .v1_0 → sb.superblockOffset ≠ 0 ∧ sb.superblockOffset ≠ 4096
  size_lt : size < 2 ^ 64

/-- The places are apart, each a multiple of the block's length. -/
theorem exists_split_candidates {size place : Nat} {version : MdVersion}
    (candidate : (place, version) ∈ v1Candidates size)
    (own : version = .v1_0 → place ≠ 0 ∧ place ≠ 4096) :
    ∃ before after, v1Candidates size = before ++ (place, version) :: after ∧ 4096 ∣ place ∧
      ∀ other ∈ before, 4096 ∣ other.1 ∧ other.1 ≠ place := by
  unfold v1Candidates at candidate ⊢
  generalize last : (if 16 ≤ size / mdSector then
    [((size / mdSector - 16) / 8 * 8 * mdSector, MdVersion.v1_0)] else []) = tail at candidate ⊢
  simp only [List.mem_append, List.mem_cons, List.not_mem_nil, or_false] at candidate
  rcases candidate with (same | same) | member
  · cases same
    exact ⟨[], (4096, .v1_2) :: tail, rfl, by simp, by simp⟩
  · cases same
    exact ⟨[(0, .v1_1)], tail, rfl, by simp, by simp⟩
  · split at last
    next =>
      subst last
      cases List.mem_singleton.mp member
      refine ⟨[(0, .v1_1), (4096, .v1_2)], [], rfl, ?_, ?_⟩
      · rw [Nat.mul_assoc]
        exact Nat.dvd_mul_left 4096 _
      · have apart := own rfl
        simp only [List.forall_mem_cons]
        exact ⟨⟨by simp, apart.1.symm⟩, ⟨by simp, apart.2.symm⟩, by simp⟩
    next =>
      subst last
      cases member

/-- A device of zeros with a block at a place. -/
def deviceWith {size place : Nat} {block : List UInt8} (inside : place + block.length ≤ size)
    (size_lt : size < 2 ^ 64) : ByteDevice where
  bytes := splice (List.replicate size 0) place block
  writable := false
  flushed := .ok ()
  journal := []
  length_lt := by
    rw [length_splice (by rw [List.length_replicate]; exact inside), List.length_replicate]
    exact size_lt

theorem bytes_deviceWith {size place : Nat} {block : List UInt8}
    (inside : place + block.length ≤ size) (size_lt : size < 2 ^ 64) :
    (deviceWith inside size_lt).bytes.length = size ∧
      slice (deviceWith inside size_lt).bytes place block.length = block ∧
      ∀ other len, other + len ≤ size →
        other + len ≤ place ∨ place + block.length ≤ other →
        slice (deviceWith inside size_lt).bytes other len = List.replicate len 0 := by
  have fits : place + block.length ≤ (List.replicate size (0 : UInt8)).length := by
    rw [List.length_replicate]
    exact inside
  unfold deviceWith
  refine ⟨?_, slice_splice_self fits, ?_⟩
  · rw [length_splice fits, List.length_replicate]
  · intro other len there apart
    rw [slice_splice_disjoint fits apart, slice_replicate _ there]

theorem MdSuperblock.Placed.fits {sb : MdSuperblock} {size : Nat} (placed : sb.Placed size) :
    sb.superblockOffset + sb.v1Block.length ≤ size := by
  rw [length_v1Block placed.held.uuid]
  exact placed.inside

/-- A device with the superblock at its place. -/
def MdSuperblock.Placed.image {sb : MdSuperblock} {size : Nat} (placed : sb.Placed size) :
    ByteDevice :=
  deviceWith placed.fits placed.size_lt

/-- A block of zeros is no superblock. -/
theorem parseV1_zeros (place devSize member : Nat) (version : MdVersion) :
    parseV1 (List.replicate 4096 0) place version devSize member = .ok none := by
  have zero : field (List.replicate 4096 (0 : UInt8)) 0 4 = 0 := by
    rw [field, slice_replicate _ (by decide)]
    rfl
  have other : field (List.replicate 4096 (0 : UInt8)) 0 4 ≠ mdMagic := by
    rw [zero]
    decide
  unfold parseV1
  rw [if_pos (.inl other)]

/-- The places of 1.1 and 1.2 are tried before that of 1.0. -/
theorem mem_before_v1_0 {size place : Nat} {before after : List (Nat × MdVersion)}
    (split : v1Candidates size = before ++ (place, .v1_0) :: after) :
    (0, MdVersion.v1_1) ∈ before ∧ (4096, MdVersion.v1_2) ∈ before := by
  unfold v1Candidates at split
  cases before with
  | nil => cases split
  | cons first rest =>
      cases rest with
      | nil => cases split
      | cons second more =>
          obtain ⟨own, split⟩ := List.cons.inj split
          obtain ⟨next, _⟩ := List.cons.inj split
          rw [own, next]
          simp

/-- From a device that holds the superblock's block at its place, and no other earlier, the
superblock is read. -/
theorem readSuperblockOf_image {sb : MdSuperblock} {size : Nat} (placed : sb.Placed size)
    (member : Nat) : readSuperblockOf placed.image.toBlockRead member = .ok (some sb) := by
  have block := length_v1Block placed.held.uuid
  obtain ⟨length, own, others⟩ := bytes_deviceWith placed.fits placed.size_lt
  change placed.image.bytes.length = size at length
  rw [block] at own others
  obtain ⟨before, after, split, whole, apart⟩ := exists_split_candidates placed.candidate placed.own
  have first : firstV1 placed.image.toBlockRead member (v1Candidates size) = .ok (some sb) := by
    rw [firstV1_eq_ok, length]
    refine ⟨before, sb.superblockOffset, sb.version, after, split, placed.inside, ?_, ?_⟩
    · rw [MdSuperblock.Placed.image, own]
      exact parseV1_of_held placed.held member
    · intro other tried fits
      obtain ⟨⟨count, place⟩, ne⟩ := apart other tried
      obtain ⟨times, there⟩ := whole
      rw [MdSuperblock.Placed.image, others other.1 4096 fits (by omega)]
      exact parseV1_zeros other.1 size member other.2
  unfold readSuperblockOf
  rw [show placed.image.toBlockRead.sizeBytes.toNat = size from
    (placed.image.toNat_sizeBytes).trans length]
  dsimp only
  rw [first, ok_bind]

/-! ## Superblocks of version 0.90 -/

/-- The state bits of a descriptor and the slot it names. -/
def v0Code : MdRole → Nat × Nat
  | .active slot => (6, slot)
  | .faulty => (1, 0)
  | _ => (0, 0)

/-- The words of a 0.90 superblock, those that are not read as zeros. -/
def v0Parts (sb : MdSuperblock) : List (List UInt8) :=
  [encode 4 mdMagic, encode 4 0, encode 4 90, unread 8, sb.arrayUuid.take 4,
    unread 4, encode 4 (sb.level % 2 ^ 32).toNat, encode 4 (sb.componentSize / 1024),
    unread 4, encode 4 sb.raidDisks, unread 8, sb.arrayUuid.drop 4,
    unread 92, encode 8 sb.events, unread 92, encode 4 sb.layout,
    encode 4 sb.chunkBytes, unread 3716, encode 4 (v0Code sb.role).2,
    encode 4 (v0Code sb.role).1, unread 108]

def MdSuperblock.v0Block (sb : MdSuperblock) : List UInt8 := (v0Parts sb).flatten

/-- A superblock that a 0.90 block at a place can hold. -/
structure MdSuperblock.LegacyHeld (sb : MdSuperblock) (place : Nat) : Prop where
  version : sb.version = .v0_90
  offset : sb.superblockOffset = place
  uuid : sb.arrayUuid.length = 16
  level : -2 ^ 31 ≤ sb.level ∧ sb.level < 2 ^ 31
  layout : sb.layout < 2 ^ 32
  chunk : sb.chunkBytes < 2 ^ 32
  disks : sb.raidDisks < 2 ^ 32
  role : sb.role ≠ .journal ∧ ∀ slot, sb.role = .active slot → slot < 2 ^ 32
  data : sb.dataOffset = 0 ∧ sb.dataSize = place
  component : 1024 ∣ sb.componentSize ∧ sb.componentSize / 1024 < 2 ^ 32 ∧
    sb.componentSize ≤ place
  events : sb.events < 2 ^ 64
  features : sb.featureMap = 0

theorem length_v0Block {sb : MdSuperblock} (uuid : sb.arrayUuid.length = 16) :
    sb.v0Block.length = 4096 := by
  simp [MdSuperblock.v0Block, v0Parts, uuid]

theorem field_v0Block {sb : MdSuperblock} (index : Nat) {offset width value : Nat}
    (found : (v0Parts sb)[index]? = some (encode width value))
    (place : ((v0Parts sb).take index).flatten.length = offset) (bounded : value < 256 ^ width) :
    field sb.v0Block offset width = value :=
  field_of_slice (slice_part found place (length_encode width value)) bounded

/-- A descriptor is read as the role it is written for. -/
theorem v0Role_code {role : MdRole} (other : role ≠ .journal)
    (slots : ∀ slot, role = .active slot → slot < 2 ^ 32) :
    v0Role (v0Code role).1 (v0Code role).2 = role ∧ (v0Code role).1 < 256 ^ 4 ∧
      (v0Code role).2 < 256 ^ 4 := by
  cases role with
  | active slot =>
      have small := slots slot rfl
      change v0Role 6 slot = _ ∧ 6 < 256 ^ 4 ∧ slot < _
      have clear : ¬ Nat.testBit 6 0 = true := by decide
      have synced : Nat.testBit 6 1 = true ∧ Nat.testBit 6 2 = true := by decide
      rw [v0Role, if_neg clear, if_pos synced]
      exact ⟨rfl, by decide, small⟩
  | spare => exact ⟨rfl, by decide, by decide⟩
  | faulty => exact ⟨rfl, by decide, by decide⟩
  | journal => exact absurd rfl other

theorem role_of_v0Role (state : Nat) {slot : Nat} (bounded : slot < 256 ^ 4) :
    v0Role state slot ≠ .journal ∧ ∀ own, v0Role state slot = .active own → own < 2 ^ 32 := by
  unfold v0Role
  split
  next => simp
  next =>
    split
    next =>
      refine ⟨by simp, ?_⟩
      rintro own ⟨⟩
      exact bounded
    next => simp

/-- The array's identity is in two places of the block. -/
theorem uuid_v0Block {sb : MdSuperblock} (uuid : sb.arrayUuid.length = 16) :
    [5, 13, 14, 15].flatMap (fun word => slice sb.v0Block (word * 4) 4) = sb.arrayUuid := by
  have first : slice sb.v0Block 20 4 = sb.arrayUuid.take 4 :=
    @slice_part (v0Parts sb) 4 20 4 _ rfl (by simp [v0Parts]) (by simp [uuid])
  have last : slice sb.v0Block 52 12 = sb.arrayUuid.drop 4 :=
    @slice_part (v0Parts sb) 11 52 12 _ rfl (by simp [v0Parts, uuid]) (by simp [uuid])
  have front := slice_append_slice sb.v0Block 52 4 4
  have joined := slice_append_slice sb.v0Block 52 8 4
  rw [last, ← front] at joined
  calc
    _ = slice sb.v0Block 20 4 ++ (slice sb.v0Block 52 4 ++ slice sb.v0Block 56 4 ++
          slice sb.v0Block 60 4) := by simp
    _ = sb.arrayUuid.take 4 ++ sb.arrayUuid.drop 4 := by rw [first, joined]
    _ = sb.arrayUuid := List.take_append_drop 4 _

/-- What is decoded as a 0.90 superblock is held at its place. -/
theorem legacyHeld_of_parseV0 {buf : List UInt8} (length : buf.length = 4096) {place member : Nat}
    {sb : MdSuperblock} (parsed : parseV0 buf place member = .ok (some sb)) :
    sb.LegacyHeld place := by
  unfold parseV0 at parsed
  dsimp only at parsed
  split at parsed
  next => cases parsed
  next =>
    obtain ⟨fits, parsed⟩ := refuseIf_bind_eq_ok.mp parsed
    cases parsed
    have kib := field_lt buf (8 * 4) 4
    have word : ∀ offset, offset + 4 ≤ 4096 → (slice buf offset 4).length = 4 := by
      intro offset inside
      exact length_slice (by omega)
    have whole : ([5, 13, 14, 15].flatMap fun word => slice buf (word * 4) 4).length = 16 := by
      simp only [List.flatMap_cons, List.flatMap_nil, List.length_append, List.length_nil]
      rw [word _ (by decide), word _ (by decide), word _ (by decide), word _ (by decide)]
    exact {
      version := rfl
      offset := rfl
      uuid := whole
      level := le_signed32 (field_lt buf _ 4)
      layout := field_lt buf _ 4
      chunk := field_lt buf _ 4
      disks := field_lt buf _ 4
      role := role_of_v0Role _ (field_lt buf _ 4)
      data := ⟨rfl, rfl⟩
      component := by
        refine ⟨Nat.dvd_mul_left 1024 _, ?_, Nat.not_lt.mp fits⟩
        dsimp only
        rw [Nat.mul_div_cancel _ (by decide)]
        exact kib
      events := field_lt buf _ 8
      features := rfl }

/-- What a 0.90 superblock does not record is told from its place. -/
theorem MdSuperblock.LegacyHeld.same {sb : MdSuperblock} {place : Nat}
    (held : sb.LegacyHeld place) :
    ({ sb with
        version := .v0_90
        superblockOffset := place
        dataOffset := 0
        dataSize := place
        featureMap := 0 } : MdSuperblock) = sb := by
  cases sb
  rw [MdSuperblock.mk.injEq]
  exact ⟨held.version.symm, held.offset.symm, rfl, rfl, rfl, rfl, rfl, rfl, held.data.1.symm,
    held.data.2.symm, rfl, rfl, held.features.symm⟩

/-- A 0.90 superblock is decoded from its own block. -/
theorem parseV0_of_legacyHeld {sb : MdSuperblock} {place : Nat} (held : sb.LegacyHeld place)
    (member : Nat) : parseV0 sb.v0Block place member = .ok (some sb) := by
  have uuid := held.uuid
  obtain ⟨role, state, slot⟩ := v0Role_code held.role.1 held.role.2
  have signed : (sb.level % 2 ^ 32).toNat < 256 ^ 4 := by omega
  have magic : field sb.v0Block 0 4 = mdMagic :=
    field_v0Block 0 rfl (by simp [v0Parts]) (by decide)
  have major : field sb.v0Block 4 4 = 0 :=
    field_v0Block 1 rfl (by simp [v0Parts]) (by decide)
  have minor : field sb.v0Block 8 4 = 90 :=
    field_v0Block 2 rfl (by simp [v0Parts]) (by decide)
  have level : field sb.v0Block 28 4 = (sb.level % 2 ^ 32).toNat :=
    field_v0Block 6 rfl (by simp [v0Parts, uuid]) signed
  have size : field sb.v0Block 32 4 = sb.componentSize / 1024 :=
    field_v0Block 7 rfl (by simp [v0Parts, uuid]) held.component.2.1
  have disks : field sb.v0Block 40 4 = sb.raidDisks :=
    field_v0Block 9 rfl (by simp [v0Parts, uuid]) held.disks
  have events : field sb.v0Block 156 8 = sb.events :=
    field_v0Block 13 rfl (by simp [v0Parts, uuid]) held.events
  have layout : field sb.v0Block 256 4 = sb.layout :=
    field_v0Block 15 rfl (by simp [v0Parts, uuid]) held.layout
  have chunk : field sb.v0Block 260 4 = sb.chunkBytes :=
    field_v0Block 16 rfl (by simp [v0Parts, uuid]) held.chunk
  have raidDisk : field sb.v0Block 3980 4 = (v0Code sb.role).2 :=
    field_v0Block 18 rfl (by simp [v0Parts, uuid]) slot
  have bits : field sb.v0Block 3984 4 = (v0Code sb.role).1 :=
    field_v0Block 19 rfl (by simp [v0Parts, uuid]) state
  have known : ¬ (mdMagic ≠ mdMagic ∨ 0 ≠ 0 ∨ 90 ≠ 90) := by
    rintro (other | other | other)
    all_goals exact other rfl
  have scaled := Nat.div_mul_cancel held.component.1
  unfold parseV0
  simp only [Nat.reduceMul, Nat.reduceAdd, magic, major, minor, size, scaled, level, layout, chunk,
    disks, bits, raidDisk, role, events, signed32_emod held.level.1 held.level.2]
  rw [if_neg known, refuseIf_of_not (Nat.not_lt.mpr held.component.2.2), ok_bind,
    uuid_v0Block uuid]
  exact congrArg (fun found => Except.ok (some found)) held.same

/-- A 0.90 superblock that can be read from a device of `size` bytes. -/
structure MdSuperblock.LegacyPlaced (sb : MdSuperblock) (size : Nat) : Prop where
  reserved : v0Reserved ≤ size
  held : sb.LegacyHeld (size / v0Reserved * v0Reserved - v0Reserved)
  size_lt : size < 2 ^ 64

theorem MdSuperblock.LegacyPlaced.fits {sb : MdSuperblock} {size : Nat}
    (placed : sb.LegacyPlaced size) : sb.superblockOffset + sb.v0Block.length ≤ size := by
  have reserved := placed.reserved
  rw [length_v0Block placed.held.uuid, placed.held.offset]
  unfold v0Reserved at reserved ⊢
  omega

/-- A device with the superblock at its place. -/
def MdSuperblock.LegacyPlaced.image {sb : MdSuperblock} {size : Nat}
    (placed : sb.LegacyPlaced size) : ByteDevice :=
  deviceWith placed.fits placed.size_lt

/-- A 0.90 superblock is none of version 1. -/
theorem parseV1_v0Block (sb : MdSuperblock) (place devSize member : Nat) (version : MdVersion) :
    parseV1 sb.v0Block place version devSize member = .ok none := by
  have major : field sb.v0Block 4 4 = 0 :=
    field_v0Block 1 rfl (by simp [v0Parts]) (by decide)
  have other : field sb.v0Block 4 4 ≠ 1 := by
    rw [major]
    decide
  unfold parseV1
  rw [if_pos (.inr other)]

theorem firstV1_eq_none {dev : ByteDevice} {member : Nat} {places : List (Nat × MdVersion)}
    (none : ∀ other ∈ places, other.1 + 4096 ≤ dev.bytes.length →
      parseV1 (slice dev.bytes other.1 4096) other.1 other.2 dev.bytes.length member = .ok none) :
    firstV1 dev.toBlockRead member places = .ok .none := by
  have size : dev.toBlockRead.sizeBytes.toNat = dev.bytes.length := dev.toNat_sizeBytes
  induction places with
  | nil => rfl
  | cons first rest ih =>
      obtain ⟨start, kind⟩ := first
      rw [List.forall_mem_cons] at none
      rw [firstV1, size]
      by_cases past : dev.bytes.length < start + 4096
      · rw [if_pos past]
        exact ih none.2
      · rw [if_neg past, readMd_of_le (Nat.not_lt.mp past), ok_bind,
          none.1 (Nat.not_lt.mp past), ok_bind]
        exact ih none.2

theorem dvd_of_candidate {size : Nat} {other : Nat × MdVersion}
    (candidate : other ∈ v1Candidates size) : 4096 ∣ other.1 := by
  unfold v1Candidates at candidate
  rcases List.mem_append.mp candidate with first | last
  · simp only [List.mem_cons, List.not_mem_nil, or_false] at first
    rcases first with rfl | rfl
    · exact Nat.dvd_zero 4096
    · exact Nat.dvd_refl 4096
  · split at last
    next =>
      rw [List.mem_singleton.mp last]
      dsimp only
      rw [Nat.mul_assoc]
      exact Nat.dvd_mul_left 4096 _
    next => cases last

/-- From a device that holds the superblock's block at its place the superblock is read. -/
theorem readSuperblockOf_legacyImage {sb : MdSuperblock} {size : Nat}
    (placed : sb.LegacyPlaced size) (member : Nat) :
    readSuperblockOf placed.image.toBlockRead member = .ok (some sb) := by
  have block := length_v0Block placed.held.uuid
  have fits := placed.fits
  obtain ⟨length, own, others⟩ := bytes_deviceWith placed.fits placed.size_lt
  change placed.image.bytes.length = size at length
  change slice placed.image.bytes _ _ = _ at own
  rw [block] at own others fits
  have whole : 4096 ∣ sb.superblockOffset := by
    rw [placed.held.offset]
    unfold v0Reserved
    omega
  have first : firstV1 placed.image.toBlockRead member (v1Candidates size) = .ok none := by
    refine firstV1_eq_none fun other tried inside => ?_
    rw [length] at inside ⊢
    by_cases same : other.1 = sb.superblockOffset
    · rw [same, own]
      exact parseV1_v0Block sb _ size member other.2
    · obtain ⟨count, place⟩ := dvd_of_candidate tried
      obtain ⟨times, there⟩ := whole
      rw [MdSuperblock.LegacyPlaced.image, others other.1 4096 inside (by omega)]
      exact parseV1_zeros other.1 size member other.2
  unfold readSuperblockOf
  rw [show placed.image.toBlockRead.sizeBytes.toNat = size from
    (placed.image.toNat_sizeBytes).trans length]
  dsimp only
  rw [first, ok_bind]
  dsimp only
  rw [if_pos placed.reserved, ← placed.held.offset,
    readMd_of_le (by rw [length]; exact fits), ok_bind, show v0Size = 4096 from rfl, own]
  have held := placed.held
  rw [← placed.held.offset] at held
  exact parseV0_of_legacyHeld held member

/-- A superblock that is read from a device has a place on it. -/
theorem placed_of_readSuperblockOf {dev : ByteDevice} {member : Nat} {sb : MdSuperblock}
    (read : readSuperblockOf dev.toBlockRead member = .ok (some sb)) :
    sb.Placed dev.bytes.length ∨ sb.LegacyPlaced dev.bytes.length := by
  unfold readSuperblockOf at read
  have size : dev.toBlockRead.sizeBytes.toNat = dev.bytes.length := dev.toNat_sizeBytes
  rw [size] at read
  obtain ⟨found, first, read⟩ := bind_eq_ok.mp read
  cases found with
  | none =>
      dsimp only at read
      split at read
      next reserved =>
        obtain ⟨buf, block, read⟩ := bind_eq_ok.mp read
        have inside : dev.bytes.length / v0Reserved * v0Reserved - v0Reserved + v0Size ≤
            dev.bytes.length := by
          unfold v0Reserved at reserved ⊢
          unfold v0Size
          omega
        rw [readMd_of_le inside] at block
        have length : buf.length = 4096 := by
          rw [← Except.ok.inj block]
          exact length_slice inside
        exact .inr ⟨reserved, legacyHeld_of_parseV0 length read, dev.length_lt⟩
      next => cases read
  | some own =>
      cases read
      obtain ⟨before, place, version, after, split, fits, parsed, none⟩ := firstV1_eq_ok.mp first
      have held := held_of_parseV1 (by rw [length_slice fits]; decide) parsed
      obtain rfl := held.version
      obtain rfl := held.offset
      refine .inl ⟨?_, fits, held, ?_, dev.length_lt⟩
      · rw [split]
        exact List.mem_append_right before List.mem_cons_self
      · intro last
        have earlier : ∀ other ∈ before, sb.superblockOffset ≠ other.1 := by
          intro other tried same
          rw [same] at parsed fits
          rw [parseV1_eq_none (none other tried fits) sb.version] at parsed
          cases parsed
        obtain ⟨first, second⟩ := mem_before_v1_0 (last ▸ split)
        exact ⟨earlier _ first, earlier _ second⟩

end DiskPartitions
