import DiskPartitions.LogicalVolumes
import DiskPartitions.Tilings
import Mathlib.Data.List.Find

/-!
# The runs of a logical volume

Segments are resolved one after another, and when the extents they count stay within a word
their runs follow one another without a gap.  A read then finds the run of each position, so
a volume whose runs each read as they should reads as it should.
-/

namespace DiskPartitions

open Refusals BufferedReads Tilings

variable {V : Type}

/-- A run as a part of its volume. -/
def Run.tile (run : Run V) : Tile (Run V × Nat) where
  start := run.start
  len := run.len
  place := fun within => (run, within)

/-! ## Resolving -/

namespace Mapper

variable {mapper : Mapper} {sub : String → Except LvmError (V × Nat)}
  {read : V → Nat → Nat → Except BlockError (List UInt8)} {name : String}

/-- The run a segment is resolved to. -/
structure Resolves (mapper : Mapper) (sub : String → Except LvmError (V × Nat))
    (read : V → Nat → Nat → Except BlockError (List UInt8)) (name : String)
    (seg : Segment) (run : Run V) : Prop where
  len : run.len = seg.extentCount * mapper.vg.extentSize
  map : mapSegment sub read mapper name seg = .ok run.map

/-- The first segment is resolved and the others after it. -/
theorem mapSegments_cons {seg : Segment} {rest : List Segment} {next : Nat}
    {runs : List (Run V)} {last : Nat}
    (mapped : mapSegments sub read mapper name (seg :: rest) next = .ok (runs, last)) :
    seg.startExtent = next ∧ ∃ run others, runs = run :: others ∧
      run.start = next * mapper.vg.extentSize % 2 ^ 64 ∧ Resolves mapper sub read name seg run ∧
      mapSegments sub read mapper name rest ((next + seg.extentCount) % 2 ^ 64) =
        .ok (others, last) := by
  rw [mapSegments] at mapped
  obtain ⟨starts, mapped⟩ := refuseIf_bind_eq_ok.mp mapped
  obtain ⟨-, mapped⟩ := refuseIf_bind_eq_ok.mp mapped
  obtain ⟨map, resolved, mapped⟩ := bind_eq_ok.mp mapped
  obtain ⟨⟨others, finish⟩, later, mapped⟩ := bind_eq_ok.mp mapped
  cases mapped
  exact ⟨not_ne_iff.mp starts, _, others, rfl, rfl, ⟨rfl, resolved⟩, later⟩

/-- How many extents the segments count. -/
def extents (segs : List Segment) : Nat := (segs.map Segment.extentCount).sum

theorem extents_cons (seg : Segment) (rest : List Segment) :
    extents (seg :: rest) = seg.extentCount + extents rest := by
  simp [extents]

/-- While the extents stay within a word, the runs follow one another and start where the
segments say. -/
theorem tiles_of_mapSegments {segs : List Segment} {next : Nat} {runs : List (Run V)} {last : Nat}
    (mapped : mapSegments sub read mapper name segs next = .ok (runs, last))
    (exact : (next + extents segs) * mapper.vg.extentSize < 2 ^ 64) :
    last = next + extents segs ∧
      Tiles (runs.map Run.tile) (next * mapper.vg.extentSize) (last * mapper.vg.extentSize) ∧
      List.Forall₂ (fun seg run => run.start = seg.startExtent * mapper.vg.extentSize ∧
        Resolves mapper sub read name seg run) segs runs := by
  induction segs generalizing next runs with
  | nil =>
      rw [mapSegments] at mapped
      cases mapped
      exact ⟨rfl, rfl, .nil⟩
  | cons seg rest ih =>
      obtain ⟨starts, run, others, rfl, start, resolved, later⟩ := mapSegments_cons mapped
      rw [extents_cons, ← Nat.add_assoc] at exact
      have positive := mapper.vg.extentSize_pos
      have whole : next + seg.extentCount + extents rest < 2 ^ 64 :=
        Nat.lt_of_le_of_lt (Nat.le_mul_of_pos_right _ positive) exact
      rw [Nat.mod_eq_of_lt (by omega)] at later
      obtain ⟨finish, tiles, places⟩ := ih later exact
      have here : next * mapper.vg.extentSize < 2 ^ 64 :=
        Nat.lt_of_le_of_lt (Nat.mul_le_mul_right _ (by omega)) exact
      rw [Nat.mod_eq_of_lt here] at start
      refine ⟨by rw [finish, extents_cons, Nat.add_assoc], ⟨start, ?_⟩,
        .cons ⟨by rw [start, starts], resolved⟩ places⟩
      rw [Nat.add_mul] at tiles
      change Tiles _ (_ + run.len) _
      rw [resolved.len]
      exact tiles

/-- What resolving a volume does. -/
theorem map_eq_ok {levels : Nat} {volume : Volume (levels + 1)} {size : Nat}
    (mapped : mapper.map (levels + 1) name = .ok (volume, size)) :
    ∃ info last, mapper.lv name = .ok info ∧
      mapSegments (mapper.map levels) (readVolume mapper.devices levels) mapper name
        info.segments 0 = .ok (volume, last) ∧
      size = last * mapper.vg.extentSize % 2 ^ 64 := by
  rw [Mapper.map] at mapped
  obtain ⟨info, found, mapped⟩ := bind_eq_ok.mp mapped
  obtain ⟨⟨runs, last⟩, resolved, mapped⟩ := bind_eq_ok.mp mapped
  cases mapped
  exact ⟨info, last, found, resolved, rfl⟩

end Mapper

/-- What opening a volume does. -/
theorem LogicalVolume.openVolume_eq_ok {devices : List BlockRead} {name : String}
    {volume : LogicalVolume} (opened : openVolume devices name = .ok volume) :
    volume.devices = devices ∧ ∃ mapper, Mapper.ofDevices devices = .ok mapper ∧
      mapper.devices = devices ∧ mapper.lv name = .ok volume.info ∧
      mapper.map 3 name = .ok (volume.runs, volume.size) := by
  unfold openVolume at opened
  obtain ⟨mapper, found, opened⟩ := bind_eq_ok.mp opened
  obtain ⟨info, named, opened⟩ := bind_eq_ok.mp opened
  obtain ⟨⟨runs, size⟩, mapped, opened⟩ := bind_eq_ok.mp opened
  cases opened
  refine ⟨rfl, mapper, found, ?_, named, mapped⟩
  unfold Mapper.ofDevices at found
  obtain ⟨vg, -, found⟩ := bind_eq_ok.mp found
  obtain ⟨uuids, -, found⟩ := bind_eq_ok.mp found
  cases found
  rfl

/-- A volume whose segments are resolved opens. -/
theorem openVolume_of_map {devices : List BlockRead} {mapper : Mapper} {name : String}
    {info : LogicalVolumeInfo} {runs : Volume 3} {size : Nat}
    (found : Mapper.ofDevices devices = .ok mapper) (named : mapper.lv name = .ok info)
    (mapped : mapper.map 3 name = .ok (runs, size)) :
    LogicalVolume.openVolume devices name = .ok { devices, runs, size, info } := by
  unfold LogicalVolume.openVolume
  rw [found, ok_bind, named, ok_bind, mapped]
  rfl

/-- A volume that is named and resolved opens, with whatever was found of what it resolves to. -/
theorem exists_openVolume {devices : List BlockRead} {mapper : Mapper} {name : String}
    {holds : Volume 3 × Nat → Bool} (found : Mapper.ofDevices devices = .ok mapper)
    (named : (mapper.lv name).isOk = true)
    (mapped : (mapper.map 3 name).toOption.any holds = true) :
    ∃ info resolved, LogicalVolume.openVolume devices name =
      .ok { devices, runs := resolved.1, size := resolved.2, info } ∧ holds resolved = true := by
  cases known : mapper.lv name with
  | error error =>
      rw [known] at named
      cases named
  | ok info =>
      cases result : mapper.map 3 name with
      | error error =>
          rw [result] at mapped
          cases mapped
      | ok resolved =>
          rw [result, Except.toOption, Option.any_some] at mapped
          exact ⟨info, resolved, openVolume_of_map found known result, mapped⟩

/-! ## Reading -/

section Reads

variable {read : V → Nat → Nat → Except BlockError (List UInt8)} {devices : List BlockRead}
  {runs : List (Run V)} {size : Nat}

/-- The runs are together as long as the volume. -/
theorem sum_len_of_tiles (tiled : Tiles (runs.map Run.tile) 0 size) :
    (runs.map Run.len).sum = size := by
  have lengths := tiled.sum_len
  rw [List.map_map, Nat.zero_add] at lengths
  exact lengths

/-- No run reaches the end of the word. -/
theorem end_lt_of_tiles (tiled : Tiles (runs.map Run.tile) 0 size) (small : size < 2 ^ 64) :
    ∀ run ∈ runs, run.start + run.len < 2 ^ 64 := by
  intro run there
  have ends := (tiled.inside (List.mem_map_of_mem there)).2
  change run.start + run.len ≤ size at ends
  omega

/-- The run that has a position is found. -/
theorem find_run_of_mem (tiled : Tiles (runs.map Run.tile) 0 size) (small : size < 2 ^ 64)
    {run : Run V} (member : run ∈ runs) {within : Nat} (inside : within < run.len) :
    (runs.find? fun r => r.start ≤ run.start + within ∧
      run.start + within < (r.start + r.len) % 2 ^ 64) = some run := by
  have bounded := end_lt_of_tiles tiled small
  have covers : run.tile.Covers (run.start + within) := ⟨by simp [Run.tile], by
    simp only [Run.tile]
    omega⟩
  have found := tiled.find_of_covers (List.mem_map_of_mem member) covers
  rw [List.find?_map, Option.map_eq_some_iff] at found
  obtain ⟨same, found, equal⟩ := found
  have place : run = same := (congrArg (fun tile => (tile.place 0).1) equal).symm
  subst place
  rw [← found]
  apply List.find?_congr
  intro other there
  rw [Nat.mod_eq_of_lt (bounded other there)]
  rfl

/-- The run that has a position is the one that is read. -/
theorem readRunPiece_of_mem (tiled : Tiles (runs.map Run.tile) 0 size) (small : size < 2 ^ 64)
    {run : Run V} (member : run ∈ runs) {within : Nat} (inside : within < run.len) (left : Nat) :
    readRunPiece read devices runs (run.start + within) left =
      readMap read devices run.map within (min (run.len - within) left) := by
  have fits := end_lt_of_tiles tiled small run member
  unfold readRunPiece
  simp only [Nat.mod_eq_of_lt (by omega : run.start + within < 2 ^ 64),
    find_run_of_mem tiled small member inside, Nat.mod_eq_of_lt fits, Nat.add_sub_cancel_left,
    Nat.add_sub_add_left]

/-- Runs that each read as they should make a volume that does. -/
theorem readRuns_content (tiled : Tiles (runs.map Run.tile) 0 size) (small : size < 2 ^ 64)
    {content : Nat → UInt8}
    (each : ∀ run ∈ runs, ∀ within want, 0 < want → within + want ≤ run.len →
      ∃ taken, 0 < taken ∧ taken ≤ want ∧ readMap read devices run.map within want =
        .ok (buffer taken fun j => content (run.start + (within + j))))
    {offset len : Nat} (inside : offset + len ≤ size) :
    readRuns read devices runs offset len = .ok (buffer len fun j => content (offset + j)) := by
  have pieces : ∀ position left, 0 < left → position + left = offset + len →
      ∃ taken, 0 < taken ∧ taken ≤ left ∧ readRunPiece read devices runs position left =
        .ok (buffer taken fun j => content (position + j)) := by
    intro position left some_left ends
    obtain ⟨tile, member, within, short, rfl⟩ :=
      tiled.exists_distance (Nat.zero_le position) (by omega)
    obtain ⟨run, there, rfl⟩ := List.mem_map.mp member
    change within < run.len at short
    obtain ⟨taken, positive, bounded, got⟩ := each run there within (min (run.len - within) left)
      (by omega) (by omega)
    refine ⟨taken, positive, by omega, ?_⟩
    change readRunPiece read devices runs (run.start + within) left = _
    rw [readRunPiece_of_mem tiled small there short, got]
    refine congrArg Except.ok (buffer_congr fun j _ => ?_)
    rw [Nat.add_assoc]
    rfl
  exact readPieces_content pieces (Nat.le_refl len) rfl

end Reads

end DiskPartitions
