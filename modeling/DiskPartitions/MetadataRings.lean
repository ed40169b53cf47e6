import DiskPartitions.WrittenLabels
import Mathlib.Data.List.TakeWhile

/-!
# Metadata text in its ring

An area keeps its text in a ring that runs from the end of the header to the end of the area,
so a text may begin near the end and go on behind the header.  Reading the area gives back the
text that was written around the ring, and whatever the header says, nothing outside the area
is read.
-/

namespace DiskPartitions

open Slices LittleEndian Refusals Utf8

/-! ## The ring -/

/-- Where byte `i` of a text that begins at `off` is kept, in an area of `size` bytes. -/
def ringPlace (size off i : Nat) : Nat :=
  mdaHeaderSize + (off - mdaHeaderSize + i) % (size - mdaHeaderSize)

section Places

variable {size off i : Nat} (starts : mdaHeaderSize ≤ off) (ends : off < size)

include starts ends

/-- Up to the end of the area the text lies in one piece. -/
theorem ringPlace_before (before : i < size - off) : ringPlace size off i = off + i := by
  rw [ringPlace, Nat.mod_eq_of_lt (by omega)]
  omega

/-- From there on it lies behind the header. -/
theorem ringPlace_after (after : size - off ≤ i) (fits : i < size - mdaHeaderSize) :
    ringPlace size off i = mdaHeaderSize + (i - (size - off)) := by
  rw [ringPlace, Nat.mod_eq_sub_mod (by omega), Nat.mod_eq_of_lt (by omega)]
  omega

end Places

/-- The bytes of an area hold a text around its ring. -/
def RingHolds (bytes : List UInt8) (start size off : Nat) (text : List UInt8) : Prop :=
  ∀ i < text.length, bytes[start + ringPlace size off i]? = text[i]?

/-- A piece of the store that holds a piece of the text place by place. -/
theorem slice_eq_of_places {bytes text : List UInt8} {offset from_ len : Nat}
    (same : ∀ i < len, bytes[offset + i]? = text[from_ + i]?) :
    slice bytes offset len = slice text from_ len := by
  apply List.ext_getElem?
  intro i
  rw [getElem?_slice, getElem?_slice]
  split
  next within => exact same i within
  next => rfl

/-- The ring is read as the text it holds. -/
theorem readRing_written {dev : BlockRead} {bytes text : List UInt8} (holds : dev.Holds bytes)
    {start size off : Nat} (inside : start + size ≤ bytes.length) (starts : mdaHeaderSize ≤ off)
    (ends : off < size) (fits : text.length ≤ size - mdaHeaderSize)
    (stored : RingHolds bytes start size off text) :
    readRing dev start size off text.length = .ok text := by
  have read : ∀ place len, place + len ≤ bytes.length →
      dev.readLvm place len = .ok (slice bytes place len) := by
    intro place len within
    unfold BlockRead.readLvm
    rw [holds.reads place len within]
    rfl
  have head : slice bytes (start + off) (min (size - off) text.length) =
      slice text 0 (min (size - off) text.length) := by
    apply slice_eq_of_places
    intro i before
    rw [Nat.zero_add, ← stored i (by omega), ringPlace_before starts ends (by omega),
      Nat.add_assoc]
  unfold readRing
  dsimp only
  rw [read _ _ (by omega), ok_bind, head]
  by_cases wraps : min (size - off) text.length < text.length
  · have first : min (size - off) text.length = size - off := by omega
    rw [if_pos wraps, refuseIf_of_not (by omega), ok_bind, read _ _ (by omega), ok_bind, first]
    have tail : slice bytes (start + mdaHeaderSize) (text.length - (size - off)) =
        slice text (size - off) (text.length - (size - off)) := by
      apply slice_eq_of_places
      intro i before
      rw [← stored (size - off + i) (by omega),
        ringPlace_after starts ends (by omega) (by omega), Nat.add_sub_cancel_left, Nat.add_assoc]
    have joined := slice_append_slice text 0 (size - off) (text.length - (size - off))
    rw [Nat.zero_add, show size - off + (text.length - (size - off)) = text.length by omega]
      at joined
    rw [tail, joined, slice_full]
  · have whole : min (size - off) text.length = text.length := by omega
    rw [if_neg wraps, whole, slice_full]

/-! ## The header -/

/-- A header that is checksummed, carries the magic, and records a text that begins at `off`
and is not to be ignored. -/
structure HeaderRecords (header : List UInt8) (off : Nat) (text : List UInt8) : Prop where
  checksum : field header 0 4 = (lvmCrc (header.drop 4)).toNat
  magic : slice header 4 16 = mdaMagic
  begins : field header 40 8 = off
  length : field header 48 8 = text.length
  textChecksum : field header 56 4 = (lvmCrc text).toNat
  read : field header 60 4 &&& rawLocnIgnored = 0

/-- A device that refuses to be read outside a region. -/
def BlockRead.confined (dev : BlockRead) (start finish : Nat) (refusal : BlockError) :
    BlockRead where
  sizeBytes := dev.sizeBytes
  readAt off len :=
    if start ≤ off ∧ off + len ≤ finish then dev.readAt off len else .error refusal
  length_readAt := by
    intro off len bytes read
    split at read
    · exact dev.length_readAt read
    · cases read

theorem readLvm_confined {dev : BlockRead} {start finish off len : Nat} (after : start ≤ off)
    (before : off + len ≤ finish) (refusal : BlockError) :
    (dev.confined start finish refusal).readLvm off len = dev.readLvm off len := by
  unfold BlockRead.readLvm BlockRead.confined
  dsimp only
  rw [if_pos ⟨after, before⟩]

/-- Nothing outside the area is read, whatever its header says. -/
theorem readArea_confined (dev : BlockRead) (start size device : Nat) (refusal : BlockError) :
    readArea (dev.confined start (start + size) refusal) start size device =
      readArea dev start size device := by
  unfold readArea
  change (refuseIf (size ≤ mdaHeaderSize ∨ 2 ^ 64 ≤ start + size ∨
    dev.sizeBytes.toNat < start + size) _ >>= _) = _
  by_cases roomy : size ≤ mdaHeaderSize
  · rw [refuseIf, refuseIf, if_pos (.inl roomy), if_pos (.inl roomy)]
    rfl
  refine congrArg _ (funext fun _ => ?_)
  rw [readLvm_confined (Nat.le_refl start) (by omega)]
  refine congrArg _ (funext fun h => ?_)
  refine congrArg _ (funext fun _ => ?_)
  refine congrArg _ (funext fun _ => ?_)
  dsimp only
  split
  next => rfl
  next =>
    by_cases outside : maxMetadata < field h 48 8 ∨ field h 40 8 < mdaHeaderSize ∨ size ≤ field h 40 8
    · rw [refuseIf, if_pos outside]
      rfl
    · have ring : readRing (dev.confined start (start + size) refusal) start size (field h 40 8)
          (field h 48 8) = readRing dev start size (field h 40 8) (field h 48 8) := by
        unfold readRing
        dsimp only
        rw [readLvm_confined (by omega) (by omega)]
        refine congrArg _ (funext fun head => ?_)
        split
        next wraps =>
          by_cases past : size < mdaHeaderSize +
              (field h 48 8 - min (size - field h 40 8) (field h 48 8))
          · rw [refuseIf, if_pos past]
            rfl
          · rw [readLvm_confined (by omega) (by omega)]
        next => rfl
      rw [ring]

/-- An area reads as the text that was written around its ring, and no read leaves the area. -/
theorem readArea_reads_ring {dev : BlockRead} {bytes : List UInt8} (holds : dev.Holds bytes)
    {start size off device : Nat} (inside : start + size ≤ bytes.length)
    (starts : mdaHeaderSize ≤ off) (ends : off < size) {text : String}
    (some_text : 0 < (asBytes text).length) (no_nul : ∀ byte ∈ asBytes text, byte ≠ 0)
    (fits : (asBytes text).length ≤ size - mdaHeaderSize)
    (bounded : (asBytes text).length ≤ maxMetadata)
    (stored : RingHolds bytes start size off (asBytes text))
    (header : HeaderRecords (slice bytes start mdaHeaderSize) off (asBytes text)) :
    readArea dev start size device = .ok (some text) ∧
      ∀ (other : BlockRead) (start size device : Nat) (refusal : BlockError),
        readArea (other.confined start (start + size) refusal) start size device =
          readArea other start size device := by
  refine ⟨?_, fun other start size device refusal => readArea_confined other start size device refusal⟩
  have small : bytes.length < 2 ^ 64 := by
    rw [← holds.size]
    exact dev.sizeBytes.toNat_lt
  have read : dev.readLvm start mdaHeaderSize = .ok (slice bytes start mdaHeaderSize) := by
    unfold BlockRead.readLvm
    rw [holds.reads _ _ (by omega)]
    rfl
  unfold readArea
  rw [refuseIf_of_not (by rw [holds.size]; omega), ok_bind, read, ok_bind,
    refuseIf_of_not (not_not.mpr header.checksum.symm), ok_bind,
    refuseIf_of_not (not_not.mpr header.magic), ok_bind]
  simp only [header.begins, header.length, header.textChecksum, header.read]
  have wanted : ¬ (off = 0 ∨ (asBytes text).length = 0 ∨ 0 ≠ 0) := by
    have width : mdaHeaderSize = 512 := rfl
    omega
  rw [if_neg wanted, refuseIf_of_not (by omega), ok_bind,
    readRing_written holds inside starts ends fits stored, ok_bind,
    refuseIf_of_not (not_not.mpr rfl), ok_bind]
  rw [List.takeWhile_eq_self_iff.mpr fun byte there => by simpa using no_nul byte there,
    fromUtf8Lossy_asBytes]

/-! ## A text that wraps -/

/-- The checksummed part of the header of a text that begins at `off`. -/
def ringHeaderRest (off : Nat) (text : List UInt8) : List UInt8 :=
  mdaMagic ++ List.replicate 20 0 ++ encode 8 off ++ encode 8 text.length ++
    u32Bytes (lvmCrc text) ++ List.replicate 452 0

def ringHeader (off : Nat) (text : List UInt8) : List UInt8 :=
  u32Bytes (lvmCrc (ringHeaderRest off text)) ++ ringHeaderRest off text

theorem length_ringHeader (off : Nat) (text : List UInt8) :
    (ringHeader off text).length = mdaHeaderSize := by
  simp only [ringHeader, ringHeaderRest, List.length_append, length_encode, length_u32Bytes,
    List.length_replicate]
  rfl

theorem headerRecords_ringHeader {off : Nat} {text : List UInt8} (small : off < 2 ^ 64)
    (bounded : text.length < 2 ^ 64) : HeaderRecords (ringHeader off text) off text where
  checksum := field_of_slice rfl (UInt32.toNat_lt _)
  magic := rfl
  begins := field_of_slice rfl small
  length := field_of_slice rfl bounded
  textChecksum := field_of_slice rfl (UInt32.toNat_lt _)
  read := by
    have flags : field (ringHeader off text) 60 4 = 0 :=
      field_of_slice rfl (by decide)
    rw [flags]
    rfl

/-- An area of 520 bytes whose text begins four bytes before its end. -/
def wrappedArea : ByteDevice where
  bytes := ringHeader 516 (asBytes "hello") ++ [0x6f, 0, 0, 0, 0x68, 0x65, 0x6c, 0x6c]
  writable := false
  flushed := .ok ()
  journal := []
  length_lt := by
    rw [List.length_append, length_ringHeader]
    decide

theorem readArea_wrappedArea :
    readArea wrappedArea.toBlockRead 0 520 0 = .ok (some "hello") := by
  have text : asBytes "hello" = [0x68, 0x65, 0x6c, 0x6c, 0x6f] := by decide +kernel
  have front := length_ringHeader 516 (asBytes "hello")
  have size : wrappedArea.bytes.length = 520 := by
    rw [wrappedArea, List.length_append, front]
    rfl
  have header : slice wrappedArea.bytes 0 mdaHeaderSize = ringHeader 516 (asBytes "hello") := by
    rw [wrappedArea, slice_append_left (by omega), ← front, slice_full]
  have stored : RingHolds wrappedArea.bytes 0 520 516 (asBytes "hello") := by
    intro i inside
    have behind : ∀ place, wrappedArea.bytes[mdaHeaderSize + place]? =
        [(0x6f : UInt8), 0, 0, 0, 0x68, 0x65, 0x6c, 0x6c][place]? := by
      intro place
      rw [wrappedArea, ← front, List.getElem?_append_right (by omega), Nat.add_sub_cancel_left]
    rw [Nat.zero_add, ringPlace, behind]
    rw [text] at inside ⊢
    have places : ∀ i < 5, [(0x6f : UInt8), 0, 0, 0, 0x68, 0x65, 0x6c, 0x6c][(516 -
        mdaHeaderSize + i) % (520 - mdaHeaderSize)]? =
          [(0x68 : UInt8), 0x65, 0x6c, 0x6c, 0x6f][i]? := by decide
    exact places i inside
  exact (readArea_reads_ring wrappedArea.holds (by rw [size]) (by decide) (by decide)
    (by rw [text]; decide) (by rw [text]; decide +kernel) (by rw [text]; decide)
    (by rw [text]; decide) stored (header ▸ headerRecords_ringHeader (by decide) (by rw [text]; decide))).1

end DiskPartitions
