import DiskPartitions.WithheldVolumes
import DiskPartitions.WrittenPools

/-!
# A thin pool whose metadata is damaged

Once a thin volume is open, each block of its pool's metadata may be hit by a stray write of up
to four bytes.  The block then fails its checksum, and a read that needs it fails; no read finds
another block of the pool in its place.
-/

namespace DiskPartitions

open Slices LittleEndian Refusals WriteJournal BufferedReads WithheldReads

/-- Each block of metadata is what it was but for four bytes in a row, which do not lie across
the edge of its checksum. -/
def Scarred (read other : ReadBlock) : Prop :=
  ∀ n b d, n * thinBlock < 2 ^ 64 → read (n * thinBlock) thinBlock = .ok b →
    other (n * thinBlock) thinBlock = .ok d →
      ∃ start, CyclicSums.BurstAt start d b ∧ (d.take 4 = b.take 4 ∨ d.drop 4 = b.drop 4)

section Blocks

variable {read other : ReadBlock} (scarred : Scarred read other)

include scarred

/-- A block that passes its checksum before and after is the same block. -/
theorem checkedBlock_scarred (n : Nat) (xor : UInt32) (what : String) :
    NeverDiffer (checkedBlock read n xor what) (checkedBlock other n xor what) := by
  intro first second found again
  unfold checkedBlock at found again
  obtain ⟨inside, found⟩ := refuseIf_bind_eq_ok.mp found
  obtain ⟨-, again⟩ := refuseIf_bind_eq_ok.mp again
  obtain ⟨b, here, found⟩ := bind_eq_ok.mp found
  obtain ⟨d, there, again⟩ := bind_eq_ok.mp again
  obtain ⟨passed, found⟩ := refuseIf_bind_eq_ok.mp found
  obtain ⟨repassed, again⟩ := refuseIf_bind_eq_ok.mp again
  cases found
  cases again
  obtain ⟨start, burst, apart⟩ := scarred n first second (Nat.lt_of_not_le inside)
    (mapError_eq_ok.mp here) (mapError_eq_ok.mp there)
  rw [not_not] at passed repassed
  have same : first.take 4 = second.take 4 ∧ first.drop 4 = second.drop 4 := by
    rcases apart with summed | covered
    · refine ⟨summed.symm, ?_⟩
      have sums : field second 0 4 = field first 0 4 := by
        unfold field slice
        rw [List.drop_zero, List.drop_zero, summed]
      rw [passed, repassed, UInt32.toNat_inj, UInt32.xor_left_inj, crc32cRegister_eq_register,
        crc32cRegister_eq_register] at sums
      exact ((burst.drop 4).eq_of_register (by decide) _ sums).symm
    · refine ⟨?_, covered.symm⟩
      rw [covered, ← passed] at repassed
      have lengths := (burst.slice 0 4).length
      have stored := encode_decode (slice second 0 4)
      unfold field at repassed
      rw [lengths, repassed, encode_decode (slice first 0 4)] at stored
      exact stored
  rw [← List.take_append_drop 4 first, same.1, same.2, List.take_append_drop]

theorem lookupFrom_scarred (root key depth place : Nat) :
    NeverDiffer (lookupFrom read root key depth place) (lookupFrom other root key depth place) := by
  induction depth generalizing place with
  | zero =>
      rw [lookupFrom, lookupFrom]
      exact .refl _
  | succ depth ih =>
      rw [lookupFrom, lookupFrom]
      refine (checkedBlock_scarred scarred place _ _).bind fun b => ?_
      refine (NeverDiffer.refl _).bind fun _ => ?_
      refine (NeverDiffer.refl _).bind fun _ => ?_
      dsimp only
      cases partitionPoint (fun k => decide (k ≤ key)) (nodeKeys b (field b 16 4)) with
      | zero => exact .refl _
      | succ i =>
          dsimp only
          split
          next => exact ih _
          next => exact .refl _

theorem dataBlock_scarred (root vb : Nat) :
    NeverDiffer (dataBlock read root vb) (dataBlock other root vb) := by
  unfold dataBlock
  exact (lookupFrom_scarred scarred root vb _ _).bind fun _ => .refl _

end Blocks

/-! ## Volumes -/

section Volumes

variable {V : Type} {read other : V → Nat → Nat → Except BlockError (List UInt8)}

theorem readThin_scarred {thin : ThinMap V}
    (metadata : Scarred (read thin.metadata) (other thin.metadata))
    (data : ∀ off len, NeverDiffer (read thin.data off len) (other thin.data off len))
    (within want : Nat) :
    NeverDiffer (readThin read thin within want) (readThin other thin within want) := by
  unfold readThin
  refine ((dataBlock_scarred metadata thin.root _).mapError _ _).bind fun mapped => ?_
  cases mapped with
  | none => exact .refl _
  | some db => exact (NeverDiffer.refl _).bind fun _ => data _ _

theorem readRuns_neverDiffer {devices again : List BlockRead} {runs : List (Run V)}
    (agree : ∀ run ∈ runs, ∀ within want, NeverDiffer (readMap read devices run.map within want)
      (readMap other again run.map within want)) (offset len : Nat) :
    NeverDiffer (readRuns read devices runs offset len) (readRuns other again runs offset len) := by
  refine readPieces_neverDiffer (fun position left => ?_) len offset len
  unfold readRunPiece
  dsimp only
  split
  next => exact .refl _
  next run found => exact agree run (List.mem_of_find?_eq_some found) _ _

end Volumes

/-- What a run is made of reads as it did, but for the metadata of a pool, which is scarred. -/
def RunMap.Scarred {V : Type} (read other : V → Nat → Nat → Except BlockError (List UInt8))
    (scarred : V → Prop) (devices again : List BlockRead) : RunMap V → Prop
  | .thin pool =>
      DiskPartitions.Scarred (read pool.metadata) (other pool.metadata) ∧ scarred pool.data
  | map => ∀ within want,
      NeverDiffer (readMap read devices map within want) (readMap other again map within want)

def RunsScarred {V : Type} (read other : V → Nat → Nat → Except BlockError (List UInt8))
    (scarred : V → Prop) (devices again : List BlockRead) (runs : List (Run V)) : Prop :=
  ∀ run ∈ runs, run.map.Scarred read other scarred devices again

/-- So does what every run of a volume is made of. -/
def VolumeScarred (devices again : List BlockRead) : (levels : Nat) → Volume levels → Prop
  | 0, volume => nomatch volume
  | levels + 1, runs =>
      RunsScarred (readVolume devices levels) (readVolume again levels)
        (VolumeScarred devices again levels) devices again runs

theorem readVolume_scarred {devices again : List BlockRead} {levels : Nat} {volume : Volume levels}
    (scarred : VolumeScarred devices again levels volume) (offset len : Nat) :
    NeverDiffer (readVolume devices levels volume offset len)
      (readVolume again levels volume offset len) := by
  induction levels generalizing offset len with
  | zero => cases volume
  | succ levels ih =>
      refine readRuns_neverDiffer (fun run listed within want => ?_) offset len
      have own := scarred run listed
      cases made : run.map with
      | thin thin =>
          rw [made] at own
          exact readThin_scarred own.1 (ih own.2) within want
      | striped stripeSize stripes =>
          rw [made] at own
          exact own within want
      | raid raid =>
          rw [made] at own
          exact own within want

/-- However the metadata of its pools is scarred once a volume is open, a read returns the bytes
that it returned before, or fails. -/
theorem readAt_scarred {volume : LogicalVolume} {again : List BlockRead}
    (scarred : VolumeScarred volume.devices again 3 volume.runs) {offset len : Nat}
    {bytes : List UInt8} (before : volume.readAt offset len = .ok bytes) :
    { volume with devices := again }.readAt offset len = .ok bytes ∨
      ∃ failure, { volume with devices := again }.readAt offset len = .error failure := by
  cases after : { volume with devices := again }.readAt offset len with
  | error failure => exact .inr ⟨failure, rfl⟩
  | ok found =>
      unfold LogicalVolume.readAt at before after
      dsimp only at before after
      split at before
      next => cases before
      next inside =>
        rw [if_neg inside] at after
        rw [readVolume_scarred scarred offset len bytes found before after]
        exact .inl rfl

/-! ## A mapping overwritten -/

/-- Where the metadata of the pool keeps the data block of its one mapping. -/
def mappingWrite : Write UInt8 := ⟨2048 + (2 * 4096 + 2064), [1, 2, 3, 4]⟩

theorem mappingWrite_inside : mappingWrite.Inside thinPool.bytes.length := by
  unfold Write.Inside
  rw [WrittenPv.length_bytes, length_thinPool]
  decide

def scarredPool : ByteDevice where
  bytes := mappingWrite.apply thinPool.bytes
  writable := false
  flushed := .ok ()
  journal := []
  length_lt := by
    rw [Write.length_apply mappingWrite_inside, WrittenPv.length_bytes, length_thinPool]
    decide

/-- A block of the metadata is one of three on the device. -/
theorem readVolume_metadataRuns {dev : BlockRead} {n : Nat} {b : List UInt8}
    (small : n * thinBlock < 2 ^ 64)
    (found : readVolume [dev] 2 metadataRuns (n * thinBlock) thinBlock = .ok b) :
    n < 3 ∧ dev.readAt (2048 + n * thinBlock) thinBlock = .ok b := by
  change readPieces (readRunPiece (readVolume [dev] 1) [dev] metadataRuns) (4095 + 1)
    (n * thinBlock) thinBlock = .ok b at found
  rw [readPieces, if_neg (by decide)] at found
  obtain ⟨items, piece, found⟩ := bind_eq_ok.mp found
  unfold readRunPiece at piece
  rw [Nat.mod_eq_of_lt small] at piece
  dsimp only at piece
  split at piece
  next => cases piece
  next run chosen =>
    have covers := List.find?_some chosen
    obtain rfl := List.mem_singleton.mp (List.mem_of_find?_eq_some chosen)
    have before : n * thinBlock < 3 * 4096 := of_decide_eq_true covers |>.2
    have few : n < 3 := by
      unfold thinBlock at before
      omega
    have left : min ((0 + 3 * 4096) % 2 ^ 64 - n * thinBlock) thinBlock = thinBlock := by
      unfold thinBlock
      omega
    dsimp only at piece
    rw [left] at piece
    change dev.readAt (0 * 4096 + 2048 + (n * thinBlock - 0)) thinBlock = .ok items at piece
    rw [Nat.zero_mul, Nat.zero_add, Nat.sub_zero] at piece
    rw [dev.length_readAt piece, Nat.sub_self, readPieces, if_pos rfl, ok_bind,
      List.append_nil] at found
    cases found
    exact ⟨few, piece⟩

/-- Each block of the metadata is what it was, or is hit where its mapping is. -/
theorem scarred_metadata : Scarred (readVolume [thinPool.device.toBlockRead] 2 metadataRuns)
    (readVolume [scarredPool.toBlockRead] 2 metadataRuns) := by
  intro n b d small before after
  obtain ⟨few, before⟩ := readVolume_metadataRuns small before
  obtain ⟨-, after⟩ := readVolume_metadataRuns small after
  have length := Write.length_apply mappingWrite_inside
  have size := thinPool.length_bytes
  rw [length_thinPool] at size
  have inside : 2048 + n * thinBlock + thinBlock ≤ thinPool.bytes.length := by
    unfold thinBlock
    omega
  have answer : ∀ (dev : ByteDevice) {offset len : Nat}, offset + len ≤ dev.bytes.length →
      dev.toBlockRead.readAt offset len = .ok (slice dev.bytes offset len) :=
    fun _ _ _ within => ByteDevice.readAt_of_le within
  rw [answer thinPool.device inside] at before
  have again : 2048 + n * thinBlock + thinBlock ≤ scarredPool.bytes.length := by
    change _ ≤ (mappingWrite.apply thinPool.bytes).length
    rw [length]
    exact inside
  rw [answer scarredPool again] at after
  rw [← Except.ok.inj before, ← Except.ok.inj after]
  have burst : CyclicSums.BurstAt mappingWrite.offset (mappingWrite.apply thinPool.bytes)
      thinPool.bytes := .of_splice (Nat.le_refl 4) mappingWrite_inside
  refine ⟨_, burst.slice (2048 + n * thinBlock) thinBlock, .inl ?_⟩
  have front : ∀ bytes : List UInt8, (slice bytes (2048 + n * thinBlock) thinBlock).take 4 =
      slice bytes (2048 + n * thinBlock) 4 := by
    intro bytes
    rw [slice, List.take_take]
    rfl
  rw [front, front]
  change slice (splice thinPool.bytes (2048 + (2 * 4096 + 2064)) [1, 2, 3, 4]) _ _ = _
  apply slice_splice_disjoint
  · exact mappingWrite_inside
  · change _ ∨ 2048 + (2 * 4096 + 2064) + 4 ≤ _
    unfold thinBlock
    omega

/-- The data of the pool is past what was hit. -/
theorem volumeScarred_data :
    VolumeScarred [thinPool.device.toBlockRead] [scarredPool.toBlockRead] 2 dataRuns := by
  intro run listed
  obtain rfl := List.mem_singleton.mp listed
  intro within want bytes again before after
  change thinPool.device.readAt (3 * 4096 + 2048 + within) want = _ at before
  change scarredPool.readAt (3 * 4096 + 2048 + within) want = _ at after
  unfold ByteDevice.readAt at before after
  split at before
  next =>
    split at after
    next =>
      rw [← Except.ok.inj before, ← Except.ok.inj after]
      symm
      change slice (splice thinPool.bytes (2048 + (2 * 4096 + 2064)) [1, 2, 3, 4]) _ _ = _
      apply slice_splice_disjoint
      · exact mappingWrite_inside
      · exact .inr (Nat.le_trans (by decide) (Nat.le_add_right _ within))
    next => cases after
  next => cases before

/-- The thin volume of the pool, opened before its mapping is overwritten. -/
theorem readAt_scarredPool :
    ∃ volume, LogicalVolume.openVolume [thinPool.device.toBlockRead] "t" = .ok volume ∧
      ∀ offset len bytes, volume.readAt offset len = .ok bytes →
        { volume with devices := [scarredPool.toBlockRead] }.readAt offset len = .ok bytes ∨
          ∃ failure, { volume with devices := [scarredPool.toBlockRead] }.readAt offset len =
            .error failure := by
  have sb := thinSuperblock_superblock reads_superblock (by decide) (by decide) (by decide)
  have present := holdsTree_devices.lookup 1
  have resolved := Mapper.thin_of_pool poolOf_thinSegment rfl rfl sb present
  have named : thinPoolMapper.lv "t" = .ok ⟨"t", "", [thinSegment]⟩ := by decide +kernel
  have mapped := (Mapper.mapSegment_thin rfl).trans resolved
  have small : thinSegment.extentCount * thinPoolMapper.vg.extentSize < 2 ^ 64 := by decide
  have opened := openVolume_of_map ofDevices_thinPool named
    (Mapper.map_single named rfl rfl small mapped)
  refine ⟨_, opened, fun offset len bytes before => readAt_scarred ?_ before⟩
  intro run listed
  obtain rfl := List.mem_singleton.mp listed
  exact ⟨scarred_metadata, volumeScarred_data⟩

end DiskPartitions
