import Mathlib.Data.List.TakeWhile
import DiskPartitions.GptRegions

/-!
# The entry array

An entry is a record of seven fields over zeros, and the array is a table of
entries, one block a slot.  What the writer puts into a slot is what the reader
finds there, and a slot nobody was put into reads as unused.
-/

namespace DiskPartitions

open Slices LittleEndian CheckedWords Refusals WriteJournal

/-! ## Labels -/

/-- The bytes of a text in UTF-16, low byte first. -/
def labelBytes (text : List Char) : List UInt8 :=
  (text.flatMap Utf16.units).flatMap (encode 2)

theorem length_flatMap_encode (units : List Nat) :
    (units.flatMap (encode 2)).length = 2 * units.length := by
  induction units with
  | nil => rfl
  | cons unit units ih =>
      rw [List.flatMap_cons, List.length_append, ih, length_encode, List.length_cons]
      omega

theorem length_labelBytes (text : List Char) :
    (labelBytes text).length = 2 * Utf16.unitLength text := by
  rw [labelBytes, length_flatMap_encode, Utf16.length_flatMap_units]

theorem writeUnits_eq_splice {array : List UInt8} {offset : Nat} {units : List Nat}
    (inside : offset + 2 * units.length ≤ array.length) :
    writeUnits array offset units = splice array offset (units.flatMap (encode 2)) := by
  induction units generalizing array offset with
  | nil => simp [writeUnits]
  | cons unit units ih =>
      rw [List.length_cons] at inside
      have firstLength : (splice array offset (encode 2 unit)).length = array.length :=
        length_splice (by rw [length_encode]; omega)
      have joined := splice_splice_adjacent array (encode 2 unit) (units.flatMap (encode 2))
        offset (by rw [length_encode, length_flatMap_encode]; omega)
      rw [length_encode] at joined
      rw [writeUnits, ih (by omega), joined, List.flatMap_cons]

/-- The writer's loop over the characters puts down the greedy prefix. -/
theorem writeLabel_eq_splice {array : List UInt8} {nameOff written : Nat} {text : List Char}
    (inside : nameOff + 72 ≤ array.length) (started : written ≤ 36) :
    writeLabel array nameOff written text =
      splice array (nameOff + written * 2)
        (labelBytes (Utf16.greedyFitting (36 - written) text)) := by
  induction text generalizing array written with
  | nil => simp [writeLabel, Utf16.greedyFitting, labelBytes]
  | cons c text ih =>
      rw [writeLabel, Utf16.greedyFitting]
      by_cases fits : Utf16.unitCount c ≤ 36 - written
      · have unitBytes : ((Utf16.units c).flatMap (encode 2)).length = 2 * Utf16.unitCount c := by
          rw [length_flatMap_encode, Utf16.length_units]
        have unitsWritten : writeUnits array (nameOff + written * 2) (Utf16.units c) =
            splice array (nameOff + written * 2) ((Utf16.units c).flatMap (encode 2)) :=
          writeUnits_eq_splice (by rw [Utf16.length_units]; omega)
        have room := Utf16.unitLength_greedyFitting (36 - (written + Utf16.unitCount c)) text
        have joined := splice_splice_adjacent array ((Utf16.units c).flatMap (encode 2))
          (labelBytes (Utf16.greedyFitting (36 - (written + Utf16.unitCount c)) text))
          (nameOff + written * 2) (by rw [unitBytes, length_labelBytes]; omega)
        rw [unitBytes] at joined
        have next : nameOff + (written + Utf16.unitCount c) * 2 =
            nameOff + written * 2 + 2 * Utf16.unitCount c := by omega
        have rest : 36 - written - Utf16.unitCount c = 36 - (written + Utf16.unitCount c) := by
          omega
        rw [if_neg (by omega), if_pos fits, unitsWritten, ih (by
          rw [length_splice (by rw [unitBytes]; omega)]
          exact inside) (by omega), next, joined, rest]
        simp [labelBytes]
      · rw [if_pos (by omega), if_neg fits]
        simp [labelBytes]

theorem labelUnits_flatMap_encode {units : List Nat} (bounded : ∀ unit ∈ units, unit < 0x10000)
    (padding : Nat) :
    labelUnits (units.flatMap (encode 2) ++ List.replicate (2 * padding) 0) =
      units.takeWhile (· ≠ 0) := by
  induction units with
  | nil =>
      cases padding with
      | zero => rfl
      | succ padding =>
          rw [Nat.mul_succ, Nat.add_comm, List.replicate_add]
          rfl
  | cons unit units ih =>
      have value : decode (encode 2 unit) = unit :=
        decode_encode (by simpa using bounded unit (by simp))
      have two : encode 2 unit = [UInt8.ofNat (unit % 256), UInt8.ofNat (unit / 256 % 256)] := rfl
      rw [two] at value
      rw [List.flatMap_cons, two, List.append_assoc, List.cons_append, List.cons_append,
        List.nil_append, labelUnits, value]
      by_cases zero : unit = 0
      · simp [zero]
      · rw [if_neg zero, ih (fun other member => bounded other (by simp [member]))]
        simp [zero]

/-- Cutting the code units at the first zero cuts the text at its first NUL. -/
theorem takeWhile_flatMap_units (text : List Char) :
    (text.flatMap Utf16.units).takeWhile (· ≠ 0) =
      (text.takeWhile (· ≠ Char.ofNat 0)).flatMap Utf16.units := by
  induction text with
  | nil => rfl
  | cons c text ih =>
      by_cases zero : c = Char.ofNat 0
      · subst zero
        rfl
      · have nonzero : ∀ unit ∈ Utf16.units c, unit ≠ 0 := by
          intro unit member same
          subst same
          exact zero (Utf16.zero_mem_units.mp member)
        rw [List.flatMap_cons, List.takeWhile_append_of_pos (by simpa using nonzero), ih,
          List.takeWhile_cons_of_pos (by simpa using zero), List.flatMap_cons]

/-- What the 36-unit name field keeps of a label. -/
def storedLabel (label : Option String) : Option String :=
  label.bind fun text =>
    let kept := (Utf16.longestFitting 36 text.toList).takeWhile (· ≠ Char.ofNat 0)
    if kept.isEmpty then none else some (String.ofList kept)

/-- The text the writer puts into the name field. -/
def fittingLabel (label : Option String) : List Char :=
  Utf16.greedyFitting 36 ((label.map String.toList).getD [])

theorem parseUtf16Label_labelBytes (label : Option String) :
    parseUtf16Label (labelBytes (fittingLabel label) ++
      List.replicate (2 * (36 - Utf16.unitLength (fittingLabel label))) 0) =
      storedLabel label := by
  have bounded : ∀ unit ∈ (fittingLabel label).flatMap Utf16.units, unit < 0x10000 := by
    intro unit member
    obtain ⟨c, _, inside⟩ := List.mem_flatMap.mp member
    exact Utf16.units_lt inside
  simp only [parseUtf16Label]
  rw [labelBytes, labelUnits_flatMap_encode bounded, takeWhile_flatMap_units,
    Utf16.decodeLossy_flatMap_units]
  have empty : ∀ text : List Char, (text.flatMap Utf16.units).isEmpty = text.isEmpty := by
    intro text
    cases text with
    | nil => rfl
    | cons c text =>
        have := Utf16.unitCount_pos c
        have nonempty : (Utf16.units c).length ≠ 0 := by
          rw [Utf16.length_units]
          omega
        cases units : Utf16.units c with
        | nil => simp [units] at nonempty
        | cons unit rest => simp [units]
  rw [empty]
  unfold fittingLabel storedLabel
  cases label with
  | none => rfl
  | some text => simp [Utf16.longestFitting_eq_greedyFitting]

/-- The units of a name field: none is zero, and two bytes make one. -/
theorem labelUnits_bounds (bytes : List UInt8) :
    (labelUnits bytes).length * 2 ≤ bytes.length ∧
      ∀ unit ∈ labelUnits bytes, unit ≠ 0 ∧ unit < 0x10000 := by
  fun_induction labelUnits bytes with
  | case1 low high rest unit zero => simp
  | case2 low high rest unit nonzero ih =>
      obtain ⟨short, each⟩ := ih
      refine ⟨?_, fun other member => ?_⟩
      · rw [List.length_cons, List.length_cons, List.length_cons]
        omega
      · rcases List.mem_cons.mp member with rfl | later
        · exact ⟨nonzero, by simpa using decode_lt [low, high]⟩
        · exact each other later
  | case3 => simp

/-- A label that was read is stored as it is: an unpaired surrogate was replaced when it
was read, by a character that takes as much room. -/
theorem storedLabel_parseUtf16Label {bytes : List UInt8} (width : bytes.length ≤ 72) :
    storedLabel (parseUtf16Label bytes) = parseUtf16Label bytes := by
  obtain ⟨short, each⟩ := labelUnits_bounds bytes
  obtain ⟨shorter, clear⟩ := Utf16.decodeLossy_fits fun unit member => (each unit member).2
  have whole : Utf16.greedyFitting 36 (Utf16.decodeLossy (labelUnits bytes)) =
      Utf16.decodeLossy (labelUnits bytes) := Utf16.greedyFitting_of_le (by omega)
  have unbroken : (Utf16.decodeLossy (labelUnits bytes)).takeWhile (· ≠ Char.ofNat 0) =
      Utf16.decodeLossy (labelUnits bytes) := by
    rw [List.takeWhile_eq_self_iff]
    intro c member
    simpa using clear (fun unit present => (each unit present).1) c member
  unfold parseUtf16Label
  by_cases empty : (labelUnits bytes).isEmpty = true
  · simp only [if_pos empty]
    rfl
  · have nonempty : ¬ (Utf16.decodeLossy (labelUnits bytes)).isEmpty = true := by
      rw [List.isEmpty_iff] at empty ⊢
      rwa [Utf16.decodeLossy_eq_nil]
    simp only [if_neg empty, storedLabel, Option.bind_some, String.toList_ofList,
      Utf16.longestFitting_eq_greedyFitting, whole, unbroken, if_neg nonempty]

/-! ## One entry -/

namespace EntryRecord

/-- The fixed fields of an entry and its tail, before the name. -/
def fixedWrites (r : EntryRecord) (tail : List UInt8) : List (Write UInt8) :=
  [⟨128, tail⟩, ⟨0, r.typeGuid.bytes⟩, ⟨16, r.uuid.bytes⟩, ⟨32, u64Bytes r.startLba⟩,
    ⟨40, u64Bytes r.endLba⟩, ⟨48, u64Bytes r.attributes⟩]

/-- All the writes that lay an entry out, relative to its first byte. -/
def writes (r : EntryRecord) (tail : List UInt8) : List (Write UInt8) :=
  r.fixedWrites tail ++ [⟨56, labelBytes (fittingLabel r.label)⟩]

theorem length_labelBytes_le (label : Option String) :
    (labelBytes (fittingLabel label)).length ≤ 72 := by
  have := Utf16.unitLength_greedyFitting 36 ((label.map String.toList).getD [])
  rw [length_labelBytes]
  unfold fittingLabel
  omega

/-- The writes of an entry stay inside it. -/
theorem writes_inside {r : EntryRecord} {tail : List UInt8} {size : Nat}
    (room : 128 + tail.length ≤ size) : ∀ write ∈ r.writes tail, write.Inside size := by
  have name := length_labelBytes_le r.label
  simp only [writes, fixedWrites, List.cons_append, List.nil_append, List.forall_mem_cons,
    Write.Inside, r.typeGuid.length_bytes, r.uuid.length_bytes, length_u64Bytes]
  refine ⟨room, by omega, by omega, by omega, by omega, by omega, by omega, by simp⟩

theorem pairwise_writes (r : EntryRecord) (tail : List UInt8) :
    (r.writes tail).Pairwise Write.Disjoint := by
  have name := length_labelBytes_le r.label
  simp only [writes, fixedWrites, List.cons_append, List.nil_append, List.pairwise_cons,
    List.forall_mem_cons, List.Pairwise.nil, Write.Disjoint, r.typeGuid.length_bytes,
    r.uuid.length_bytes, length_u64Bytes, List.not_mem_nil, false_imp_iff, implies_true, and_true]
  omega

/-- The entry as the array holds it. -/
def image (r : EntryRecord) (size : Nat) (tail : List UInt8) : List UInt8 :=
  applyAll (r.writes tail) (List.replicate size 0)

section Image

variable {r : EntryRecord} {tail : List UInt8} {size : Nat}
  (room : 128 + tail.length ≤ size)

include room

theorem image_inside :
    ∀ write ∈ r.writes tail, write.Inside (List.replicate size (0 : UInt8)).length := by
  rw [List.length_replicate]
  exact writes_inside room

theorem length_image : (r.image size tail).length = size := by
  rw [image, length_applyAll (image_inside room), List.length_replicate]

/-- Every field of the image holds what was written into it. -/
theorem slice_image (write : Write UInt8) (member : write ∈ r.writes tail) :
    slice (r.image size tail) write.offset write.data.length = write.data :=
  slice_applyAll_of_mem (image_inside room) (pairwise_writes r tail) member

/-- The name field holds the label's bytes and zeros after them. -/
theorem slice_image_name :
    slice (r.image size tail) 56 72 =
      labelBytes (fittingLabel r.label) ++
        List.replicate (2 * (36 - Utf16.unitLength (fittingLabel r.label))) 0 := by
  have name := length_labelBytes_le r.label
  have units := length_labelBytes (fittingLabel r.label)
  have written := slice_image room ⟨56, labelBytes (fittingLabel r.label)⟩
    (r := r) (by simp [writes])
  have padding : slice (r.image size tail) (56 + (labelBytes (fittingLabel r.label)).length)
      (72 - (labelBytes (fittingLabel r.label)).length) =
      List.replicate (72 - (labelBytes (fittingLabel r.label)).length) 0 := by
    rw [image, slice_applyAll_disjoint (image_inside room), slice_replicate 0 (by omega)]
    simp only [writes, fixedWrites, List.cons_append, List.nil_append, List.forall_mem_cons,
      r.typeGuid.length_bytes, r.uuid.length_bytes, length_u64Bytes, List.not_mem_nil,
      false_imp_iff, implies_true, and_true]
    omega
  have joined := slice_append_slice (r.image size tail) 56
    (labelBytes (fittingLabel r.label)).length
    (72 - (labelBytes (fittingLabel r.label)).length)
  rw [Nat.add_sub_cancel' name] at joined
  have width : 72 - (labelBytes (fittingLabel r.label)).length =
      2 * (36 - Utf16.unitLength (fittingLabel r.label)) := by omega
  rw [← joined, padding, width]
  exact congrArg (· ++ _) written

end Image

end EntryRecord

/-- The tail a commit gives to an entry: cut to the entry's room. -/
def fittingTail (g : GptGeometry) (tails : EntryTails) (uuid : Guid) : List UInt8 :=
  ((tails uuid).getD []).take (g.entrySize.toNat - entryStandardBytes)

theorem length_fittingTail {g : GptGeometry} (room : 128 ≤ g.entrySize.toNat)
    (tails : EntryTails) (uuid : Guid) :
    128 + (fittingTail g tails uuid).length ≤ g.entrySize.toNat := by
  unfold fittingTail entryStandardBytes
  rw [List.length_take]
  omega

theorem writeTail_eq_splice (g : GptGeometry) (tails : EntryTails) (uuid : Guid)
    (array : List UInt8) (off : Nat) :
    writeTail g tails uuid array off = splice array (off + 128) (fittingTail g tails uuid) := by
  unfold writeTail fittingTail entryStandardBytes
  cases tails uuid with
  | none => simp
  | some tail =>
      by_cases large : 128 < g.entrySize.toNat
      · simp [large]
      · simp [large, Nat.sub_eq_zero_of_le (Nat.le_of_not_lt large)]

theorem writeName_eq_splice {array : List UInt8} {nameOff : Nat}
    (inside : nameOff + 72 ≤ array.length) (label : Option String) :
    writeName array nameOff label = splice array nameOff (labelBytes (fittingLabel label)) := by
  cases label with
  | none => simp [writeName, fittingLabel, Utf16.greedyFitting, labelBytes]
  | some label =>
      rw [writeName, writeLabel_eq_splice inside (by omega)]
      simp [fittingLabel]

/-- The writes of an entry, shifted to its slot, stay inside the array. -/
theorem shifted_writes_inside {g : GptGeometry} (room : 128 ≤ g.entrySize.toNat)
    (tails : EntryTails) (r : EntryRecord) {off size : Nat}
    (inside : off + g.entrySize.toNat ≤ size) :
    ∀ write ∈ (r.writes (fittingTail g tails r.uuid)).map (Write.shift off),
      write.Inside size := by
  intro write member
  obtain ⟨own, present, rfl⟩ := List.mem_map.mp member
  have within := r.writes_inside (length_fittingTail room tails r.uuid) own present
  unfold Write.Inside at within ⊢
  simp only [Write.shift]
  omega

/-- Laying an entry out is carrying out the writes of its record, shifted to its place. -/
theorem layEntry_eq_applyAll {g : GptGeometry} (room : 128 ≤ g.entrySize.toNat)
    (tails : EntryTails) {array : List UInt8} {off : Nat} (r : EntryRecord)
    (inside : off + g.entrySize.toNat ≤ array.length) :
    layEntry g tails array off r =
      applyAll ((r.writes (fittingTail g tails r.uuid)).map (Write.shift off)) array := by
  have fixedLength : (applyAll ((r.fixedWrites (fittingTail g tails r.uuid)).map
      (Write.shift off)) array).length = array.length := by
    apply length_applyAll
    intro write member
    apply shifted_writes_inside room tails r inside
    rw [EntryRecord.writes, List.map_append]
    exact List.mem_append_left _ member
  have laid : layEntry g tails array off r =
      writeName (applyAll ((r.fixedWrites (fittingTail g tails r.uuid)).map
        (Write.shift off)) array) (off + 56) r.label := by
    simp only [layEntry, writeTail_eq_splice, EntryRecord.fixedWrites, List.map_cons,
      List.map_nil, applyAll_cons, applyAll_nil, Write.apply, Write.shift, Nat.add_zero]
  rw [laid, writeName_eq_splice (by omega), EntryRecord.writes, List.map_append,
    applyAll_append]
  rfl

/-! ## Reading an entry back -/

/-- The partition a record describes, as the reader reports it before it looks
at the entry's neighbours. -/
def EntryRecord.partition (r : EntryRecord) (i : Nat) (deviceSize : UInt64) : Partition :=
  let start := r.startLba * sectorSize
  let length := (r.endLba - r.startLba + 1) * sectorSize
  { start
    length
    kind := .gpt r.typeGuid r.attributes
    label := storedLabel r.label
    uuid := some r.uuid
    slot := some (UInt32.ofNat i)
    issues := EntryIssue.none
    availableLength := availableOnDevice start length deviceSize }

/-- A record the reader takes: not the unused type, and a range that ends where
it starts or later and whose byte offsets fit a word. -/
structure EntryRecord.Readable (r : EntryRecord) : Prop where
  used : r.typeGuid ≠ unusedTypeGuid
  ordered : r.startLba.toNat ≤ r.endLba.toNat
  bounded : r.endLba.toNat + 1 < 2 ^ 55

section Table

variable {block : Nat → List UInt8} {size count i : Nat}
  (widths : ∀ index < count, (block index).length = size) (present : i < count)
  (deviceSize : UInt64)

include widths present

/-- An entry of zeros is unused. -/
theorem parseEntry_unused (room : 128 ≤ size) (empty : block i = List.replicate size 0) :
    parseEntry size deviceSize (blocks block count) i = .ok none := by
  have typeGuid : bytes16At (blocks block count) (i * size) = unusedTypeGuid := by
    apply bytes16At_of_slice
    have read : slice (blocks block count) (i * size + 0) 16 = slice (block i) 0 16 :=
      slice_blocks widths present (by omega)
    rw [Nat.add_zero] at read
    rw [read, empty, slice_replicate 0 (by omega)]
    rfl
  simp only [parseEntry, typeGuid, if_true]

/-- The entry of a used record whose start and length have byte counts reads back as its
partition. -/
theorem parseEntry_image_of_lt {r : EntryRecord} {tail : List UInt8}
    (room : 128 + tail.length ≤ size) (used : r.typeGuid ≠ unusedTypeGuid)
    (ordered : r.startLba.toNat ≤ r.endLba.toNat) (near : r.startLba.toNat < 2 ^ 55)
    (short : r.endLba.toNat - r.startLba.toNat + 1 < 2 ^ 55)
    (stored : block i = r.image size tail) :
    parseEntry size deviceSize (blocks block count) i =
      .ok (some (r.partition i deviceSize, r.startLba, r.endLba)) := by
  have read : ∀ write ∈ r.writes tail,
      slice (blocks block count) (i * size + write.offset) write.data.length = write.data := by
    intro write member
    rw [slice_blocks widths present (EntryRecord.writes_inside room write member), stored]
    exact EntryRecord.slice_image room write member
  have name : parseUtf16Label (slice (blocks block count) (i * size + 56) 72) =
      storedLabel r.label := by
    rw [slice_blocks widths present (by omega), stored, EntryRecord.slice_image_name room,
      parseUtf16Label_labelBytes]
  simp only [EntryRecord.writes, EntryRecord.fixedWrites, List.cons_append, List.nil_append,
    List.forall_mem_cons, r.typeGuid.length_bytes, r.uuid.length_bytes, length_u64Bytes] at read
  obtain ⟨_, typeGuid, uuid, startLba, endLba, attributes, _⟩ := read
  rw [Nat.add_zero] at typeGuid
  have one : (1 : UInt64).toNat = 1 := rfl
  have startFits : r.startLba.toNat * sectorSize.toNat < 2 ^ 64 := by
    rw [toNat_sectorSize]
    omega
  have start : checkedMul r.startLba sectorSize = some (r.startLba * sectorSize) :=
    checkedMul_eq_some.mpr (toNat_mul_of_lt startFits)
  have difference : checkedSub r.endLba r.startLba = some (r.endLba - r.startLba) := by
    rw [checkedSub_eq_some, toNat_sub_of_le ordered]
    omega
  have sum : (r.endLba - r.startLba + 1).toNat = r.endLba.toNat - r.startLba.toNat + 1 := by
    rw [toNat_add_of_lt (by rw [toNat_sub_of_le ordered, one]; omega),
      toNat_sub_of_le ordered, one]
  have sectors : checkedAdd (r.endLba - r.startLba) 1 = some (r.endLba - r.startLba + 1) := by
    rw [checkedAdd_eq_some, sum, toNat_sub_of_le ordered, one]
  have lengthFits : (r.endLba - r.startLba + 1).toNat * sectorSize.toNat < 2 ^ 64 := by
    rw [sum, toNat_sectorSize]
    omega
  have length : checkedMul (r.endLba - r.startLba + 1) sectorSize =
      some ((r.endLba - r.startLba + 1) * sectorSize) :=
    checkedMul_eq_some.mpr (toNat_mul_of_lt lengthFits)
  have forward : ¬ r.endLba < r.startLba := by
    rw [UInt64.lt_iff_toNat_lt]
    omega
  simp only [parseEntry, bytes16At_of_slice typeGuid, bytes16At_of_slice uuid,
    u64At_of_slice startLba, u64At_of_slice endLba, u64At_of_slice attributes, if_neg used,
    refuseIf_of_not forward, ok_bind, start, difference, Option.bind_some, sectors, length,
    orRefuse, name, pure_eq_ok]
  rfl

/-- The entry of a readable record reads back as its partition. -/
theorem parseEntry_image {r : EntryRecord} {tail : List UInt8}
    (room : 128 + tail.length ≤ size) (readable : r.Readable)
    (stored : block i = r.image size tail) :
    parseEntry size deviceSize (blocks block count) i =
      .ok (some (r.partition i deviceSize, r.startLba, r.endLba)) := by
  obtain ⟨used, ordered, bounded⟩ := readable
  exact parseEntry_image_of_lt widths present deviceSize room used ordered (by omega) (by omega)
    stored

end Table

end DiskPartitions
