import DiskPartitions.MdArrays

/-!
# What assembly guarantees

An array that assembly returned has the shape its newest superblock says: as
many slots as it has members, a geometry its level accepted for the members
that are there, and members long enough for what the level reads of them.
-/

namespace DiskPartitions

open Refusals

theorem length_placeMember {n newest : Nat} {slots placed : List (Option Member)}
    {found : Nat × BlockRead × MdSuperblock}
    (done : placeMember n newest slots found = .ok placed) : placed.length = slots.length := by
  unfold placeMember at done
  dsimp only at done
  split at done
  · split at done
    · cases done
      rfl
    · split at done
      · cases done
        rfl
      · obtain ⟨-, done⟩ := refuseIf_bind_eq_ok.mp done
        cases done
        exact List.length_set
  · cases done
    rfl

theorem length_placeMembers {n newest : Nat} {found : List (Nat × BlockRead × MdSuperblock)}
    {slots : List (Option Member)}
    (done : found.foldlM (placeMember n newest) (List.replicate n none) = .ok slots) :
    slots.length = n := by
  have kept := foldlM_invariant
    (fun _ _ (state : List (Option Member)) next (same : state.length = n) step =>
      (length_placeMember step).trans same)
    List.length_replicate done
  exact kept

/-- What assembly guarantees of an array, whatever its level. -/
structure Assembled (array : MdArray) : Prop where
  level : array.level = array.superblock.level
  layout : array.layout = array.superblock.layout
  chunk : array.chunk = array.superblock.chunkBytes
  members : array.slots.length = array.superblock.raidDisks
  some_members : 0 < array.slots.length
  geometry : levelGeometry array.superblock array.slots =
    .ok { size := array.size, zones := array.zones, raid10 := array.raid10 }
  spans : ∀ m ∈ array.slots.filterMap id,
    m.dataOffset + memberSpan array.superblock array.size ≤ m.dev.sizeBytes.toNat

theorem assembled_of_assembleFound {found : List (Nat × BlockRead × MdSuperblock)}
    {array : MdArray} (done : assembleFound found = .ok array) : Assembled array := by
  unfold assembleFound at done
  dsimp only at done
  split at done
  · cases done
  · obtain ⟨⟨_, _, lead⟩, -, done⟩ := bind_eq_ok.mp done
    obtain ⟨-, done⟩ := refuseIf_bind_eq_ok.mp done
    obtain ⟨counted, done⟩ := refuseIf_bind_eq_ok.mp done
    obtain ⟨slots, placed, done⟩ := bind_eq_ok.mp done
    obtain ⟨geometry, shaped, done⟩ := bind_eq_ok.mp done
    obtain ⟨long, done⟩ := refuseIf_bind_eq_ok.mp done
    cases done
    have length := length_placeMembers placed
    dsimp only at counted
    refine ⟨rfl, rfl, rfl, length, ?_, shaped, ?_⟩
    · rw [length]
      exact Nat.pos_of_ne_zero fun none => counted (.inl none)
    · intro m member
      by_contra short
      exact long ⟨m, member, Nat.lt_of_not_le short⟩

theorem assembled_of_assemble {devices : List BlockRead} {array : MdArray}
    (done : assemble devices = .ok array) : Assembled array := by
  unfold assemble at done
  obtain ⟨-, done⟩ := refuseIf_bind_eq_ok.mp done
  obtain ⟨found, -, done⟩ := bind_eq_ok.mp done
  exact assembled_of_assembleFound done

/-- The superblocks of devices that have one. -/
theorem readMembers_eq {entries : List (BlockRead × MdSuperblock)}
    (reads : ∀ entry ∈ entries, ∀ member,
      readSuperblockOf entry.1 member = .ok (some entry.2)) :
    readMembers (entries.map Prod.fst) =
      .ok (entries.zipIdx.map fun (entry, member) => (member, entry.1, entry.2)) := by
  unfold readMembers
  rw [List.zipIdx_map, List.mapM_map]
  apply mapM_of_forall
  rintro ⟨entry, member⟩ inside
  have found := reads entry (List.fst_mem_of_mem_zipIdx inside) member
  simp only [Function.comp_apply, Prod.map, id_eq]
  rw [found]
  rfl

/-! ## The parity levels -/

/-- The syndromes of a row. -/
def parityCount (level : Int) : Nat := if level = levelRaid6 then 2 else 1

/-- A level whose rows carry parity. -/
def IsParityLevel (level : Int) : Prop :=
  level = levelRaid4 ∨ level = levelRaid5 ∨ level = levelRaid6

/-- What assembly guarantees of a RAID4, RAID5 or RAID6 array. -/
structure ParityShape (array : MdArray) : Prop where
  chunk_pos : 0 < array.chunk
  several : parityCount array.level < array.slots.length
  known : array.level = levelRaid6 → raid6LayoutKnown array.layout = true
  enough : array.slots.length - parityCount array.level ≤ presentCount array.slots
  size : array.size = array.superblock.componentSize / array.chunk * array.chunk *
    (array.slots.length - parityCount array.level)
  no_copies : array.raid10 = none

theorem Assembled.parityShape {array : MdArray} (assembled : Assembled array)
    (parity : IsParityLevel array.level) : ParityShape array := by
  have shaped := assembled.geometry
  have level := assembled.level
  have chosen : levelGeometry array.superblock array.slots =
      parityGeometry array.superblock array.slots := by
    rw [level] at parity
    unfold levelGeometry
    obtain four | five | six := parity
    · rw [four]
      rfl
    · rw [five]
      rfl
    · rw [six]
      rfl
  rw [chosen] at shaped
  unfold parityGeometry needsChunk needMembers at shaped
  obtain ⟨chunked, shaped⟩ := refuseIf_bind_eq_ok.mp shaped
  obtain ⟨several, shaped⟩ := refuseIf_bind_eq_ok.mp shaped
  obtain ⟨known, shaped⟩ := refuseIf_bind_eq_ok.mp shaped
  obtain ⟨-, shaped⟩ := refuseIf_bind_eq_ok.mp shaped
  obtain ⟨enough, shaped⟩ := refuseIf_bind_eq_ok.mp shaped
  obtain ⟨-, shaped⟩ := refuseIf_bind_eq_ok.mp shaped
  simp only [Except.ok.injEq, Geometry.mk.injEq] at shaped
  obtain ⟨size, -, copies⟩ := shaped
  have count : parityCount array.level =
      if array.superblock.level = levelRaid6 then 2 else 1 := by
    rw [level]
    rfl
  refine ⟨?_, ?_, ?_, ?_, ?_, copies.symm⟩
  · rw [assembled.chunk]
    omega
  · rw [count, assembled.members]
    omega
  · intro six
    rw [level] at six
    rw [assembled.layout]
    by_contra unknown
    exact known ⟨six, unknown⟩
  · rw [count, assembled.members]
    omega
  · rw [← size, assembled.chunk, count, assembled.members]

end DiskPartitions
