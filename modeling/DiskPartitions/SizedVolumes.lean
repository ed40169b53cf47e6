import DiskPartitions.PlacedLayouts

/-!
# The size of a logical volume

Segments are placed one after another, and the place and the size are counted in words.
While the extents of a volume fit a word its runs tile it and its size is theirs; nothing
else keeps the count within a word, so a volume of two large segments is opened at the size
that is left over.
-/

namespace DiskPartitions

open Refusals Tilings TrappingWords Utf8

namespace Mapper

section Segments

variable {V : Type} (sub : String → Except LvmError (V × Nat))
  (read : V → Nat → Nat → Except BlockError (List UInt8)) (mapper : Mapper) (name : String)

/-- The segments placed as `mapSegments` does, in words that trap. -/
def mapSegmentsTrapping : List Segment → Nat → Trapping LvmError (List (Run V) × Nat)
  | [], next => exact (.ok ([], next))
  | seg :: rest, next => do
      let ext := mapper.vg.extentSize
      exact (refuseIf (seg.startExtent ≠ next)
        (.corrupt s!"{name}: segments leave a gap at extent {next}"))
      exact (refuseIf (2 ^ 64 ≤ seg.extentCount * ext) (.corrupt "segment size overflows"))
      let map ← exact (mapSegment sub read mapper name seg)
      let start ← word (fit (next * ext))
      let after ← word (fit (next + seg.extentCount))
      let (runs, last) ← mapSegmentsTrapping rest after
      exact (.ok ({ start, len := seg.extentCount * ext, map } :: runs, last))

/-- No segment is refused on its own account: each starts where the one before it ends, has a
length that fits a word, and is of a kind that resolves. -/
def Accepted : List Segment → Nat → Prop
  | [], _ => True
  | seg :: rest, next =>
      seg.startExtent = next ∧ seg.extentCount * mapper.vg.extentSize < 2 ^ 64 ∧
        (∃ map, mapSegment sub read mapper name seg = .ok map) ∧
        Accepted rest ((next + seg.extentCount) % 2 ^ 64)

end Segments

/-- A volume's runs and size, counted in words that trap; its sub-volumes are resolved by
calls of their own. -/
def mapTrapping (mapper : Mapper) : (levels : Nat) → String → Trapping LvmError (Volume levels × Nat)
  | 0, name => exact (mapper.map 0 name)
  | levels + 1, name => do
      let info ← exact (mapper.lv name)
      let (runs, next) ← mapSegmentsTrapping (mapper.map levels) (readVolume mapper.devices levels)
        mapper name info.segments 0
      let size ← word (fit (next * mapper.vg.extentSize))
      exact (.ok (runs, size))

section Segments

variable {V : Type} {sub : String → Except LvmError (V × Nat)}
  {read : V → Nat → Nat → Except BlockError (List UInt8)} {mapper : Mapper} {name : String}

theorem extents_le_mul (mapper : Mapper) (count : Nat) : count ≤ count * mapper.vg.extentSize :=
  Nat.le_mul_of_pos_right _ mapper.vg.extentSize_pos

/-- While the extents fit a word nothing traps. -/
theorem exact_mapSegments {segs : List Segment} {next : Nat}
    (fits : (next + extents segs) * mapper.vg.extentSize < 2 ^ 64) :
    mapSegmentsTrapping sub read mapper name segs next =
      exact (mapSegments sub read mapper name segs next) := by
  induction segs generalizing next with
  | nil => rfl
  | cons seg rest ih =>
      rw [extents_cons, ← Nat.add_assoc] at fits
      have after : next + seg.extentCount < 2 ^ 64 := by
        have whole := extents_le_mul mapper (next + seg.extentCount + extents rest)
        omega
      have start : next * mapper.vg.extentSize < 2 ^ 64 :=
        Nat.lt_of_le_of_lt (Nat.mul_le_mul_right _ (by omega)) fits
      unfold mapSegmentsTrapping mapSegments
      refine exact_bind rfl fun _ _ => ?_
      refine exact_bind rfl fun _ _ => ?_
      refine exact_bind rfl fun map _ => ?_
      rw [fit_bind start, fit_bind after, Nat.mod_eq_of_lt after, Nat.mod_eq_of_lt start]
      exact exact_bind (ih fits) fun _ _ => rfl

/-- The segments are placed when none of them is refused. -/
theorem exists_mapSegments_iff {segs : List Segment} {next : Nat} :
    (∃ placed, mapSegments sub read mapper name segs next = .ok placed) ↔
      Accepted sub read mapper name segs next := by
  induction segs generalizing next with
  | nil => exact ⟨fun _ => trivial, fun _ => ⟨_, rfl⟩⟩
  | cons seg rest ih =>
      constructor
      · rintro ⟨⟨runs, last⟩, placed⟩
        rw [mapSegments] at placed
        obtain ⟨starts, placed⟩ := refuseIf_bind_eq_ok.mp placed
        obtain ⟨fits, placed⟩ := refuseIf_bind_eq_ok.mp placed
        obtain ⟨map, resolved, placed⟩ := bind_eq_ok.mp placed
        obtain ⟨others, later, _⟩ := bind_eq_ok.mp placed
        exact ⟨not_ne_iff.mp starts, by omega, ⟨map, resolved⟩, ih.mp ⟨others, later⟩⟩
      · rintro ⟨starts, fits, ⟨map, resolved⟩, later⟩
        obtain ⟨others, placed⟩ := ih.mpr later
        rw [mapSegments, refuseIf_of_not (not_ne_iff.mpr starts), ok_bind,
          refuseIf_of_not (by omega), ok_bind, resolved, ok_bind, placed, ok_bind]
        exact ⟨_, rfl⟩

end Segments

/-- Resolving a volume counts its runs and its size as whole numbers do, and refuses a volume
whose size does not fit a word. -/
def SizedExactly (mapper : Mapper) (levels : Nat) (name : String) : Prop :=
  (∀ runs size, mapper.map (levels + 1) name = .ok (runs, size) →
    mapper.mapTrapping (levels + 1) name = exact (.ok (runs, size)) ∧
    ∃ info, mapper.lv name = .ok info ∧
      size = extents info.segments * mapper.vg.extentSize ∧
      Tiles (runs.map Run.tile) 0 size ∧ (runs.map Run.len).sum = size) ∧
  ∀ info, mapper.lv name = .ok info →
    Accepted (mapper.map levels) (readVolume mapper.devices levels) mapper name info.segments 0 →
    2 ^ 64 ≤ extents info.segments * mapper.vg.extentSize →
    ∃ message, mapper.map (levels + 1) name = .error (.corrupt message)

end Mapper

/-! ## A volume of two large segments -/

/-- A mirror of two segments of half a word's bytes each, over an image of one extent. -/
def largeMirror : WrittenPv where
  letter := 0x61
  text := textOf ([
    "vg \x7b", "id = \"vg\"", "seqno = 1", "extent_size = 1",
    "physical_volumes \x7b",
    "pv0 \x7b", "id = \"aaaaaaaa-aaaaaaaa-aaaaaaaa-aaaaaaaa\"", "pe_start = 4", "pe_count = 1", "\x7d",
    "\x7d",
    "logical_volumes \x7b",
    "lv \x7b",
    "segment1 \x7b", "start_extent = 0", "extent_count = 18014398509481984", "type = \"mirror\"",
    "mirrors = [\"image\", 0]", "\x7d",
    "segment2 \x7b", "start_extent = 18014398509481984", "extent_count = 18014398509481984",
    "type = \"mirror\"", "mirrors = [\"image\", 0]", "\x7d", "\x7d"] ++
    subVolume "image" 0 ++ ["\x7d", "\x7d"])
  data := List.replicate 512 0
  some_text := by decide +kernel
  text_le := by decide +kernel
  no_nul := by decide +kernel
  data_lt := by decide +kernel

def largeSegment (start : Nat) : Segment :=
  ⟨start, 2 ^ 54, "mirror", 0, [], ["image"], [], none, none, none, unstriped_sized⟩

def largeInfo : LogicalVolumeInfo := ⟨"lv", "", [largeSegment 0, largeSegment (2 ^ 54)]⟩

def largeMapper : Mapper where
  vg := {
    name := "vg"
    id := "vg"
    seqno := 1
    extentSize := 512
    physicalVolumes := [⟨"pv0", "aaaaaaaaaaaaaaaaaaaaaaaaaaaaaaaa", 2048, 1⟩]
    logicalVolumes := [largeInfo, ⟨"image", "",
      [⟨0, 1, "striped", 0, [⟨"pv0", 0⟩], [], [], none, none, none, by simp⟩]⟩]
    extentSize_pos := oneSector_pos }
  uuidToDev := [(largeMirror.label.uuid, 0)]
  devices := [largeMirror.device.toBlockRead]

theorem ofDevices_largeMirror :
    Mapper.ofDevices [largeMirror.device.toBlockRead] = .ok largeMapper := by
  have parsed : (parseMetadata (fromUtf8Lossy largeMirror.text) >>=
      VolumeGroup.fromMetadata) = .ok largeMapper.vg := by
    rw [parseMetadata_ascii (by decide +kernel)]
    decide +kernel
  exact WrittenPv.ofDevices_device parsed

end DiskPartitions
