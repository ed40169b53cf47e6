import DiskPartitions.ReportedEntries
import DiskPartitions.TrappingProbe

/-!
# Probing is safe and what it reports is exact

No reader traps, whatever the device answers, because every index is inside a buffer
whose length the block layer or an earlier refusal fixed.  What a probe then lists is
in slot order, on whole sectors, and says of each entry what its bytes say.
-/

namespace DiskPartitions

open Slices LittleEndian CheckedWords Refusals TrappingWords

theorem slice_of_length {items : List UInt8} {len : Nat} (whole : items.length = len) :
    slice items 0 len = items := by
  subst whole
  exact slice_full items

/-! ## The overlap sweep stays inside its lists -/

/-- A sweep's flags are as many as the spans, and the entry it remembers is one of them. -/
def SweepInside (spans : List (UInt64 × UInt64)) (state : List Bool × Option (Nat × UInt64)) :
    Prop :=
  state.1.length = spans.length ∧ ∀ j highest, state.2 = some (j, highest) → j < spans.length

theorem sweepStepTrapping_eq {spans : List (UInt64 × UInt64)}
    {state : List Bool × Option (Nat × UInt64)} {i : Nat} (bound : i < spans.length)
    (inside : SweepInside spans state) :
    sweepStepTrapping spans state i = some (sweepStep spans state i) ∧
      SweepInside spans (sweepStep spans state i) := by
  obtain ⟨lengthEq, remembered⟩ := inside
  rcases state with ⟨flags, none | ⟨j, highest⟩⟩
  · constructor
    · simp only [sweepStepTrapping, within_of_le (show i + 1 ≤ spans.length by omega)]
      rfl
    · refine ⟨lengthEq, fun k next found => ?_⟩
      simp only [sweepStep, Option.some.injEq, Prod.mk.injEq] at found
      omega
  · have boundJ := remembered j highest rfl
    simp only at lengthEq
    constructor
    · have second : j + 1 ≤ (flags.set i true).length := by
        rw [List.length_set]
        omega
      simp only [sweepStepTrapping, within_of_le (show i + 1 ≤ spans.length by omega),
        within_of_le (show i + 1 ≤ flags.length by omega), within_of_le second, sweepStep,
        Option.bind_eq_bind, Option.bind_some]
      split <;> rfl
    · refine ⟨by rw [length_sweepStep]; exact lengthEq, fun k next found => ?_⟩
      simp only [sweepStep] at found
      split at found
      · cases found
        exact boundJ
      · cases found
        exact bound

theorem markOverlapsTrapping_eq (spans : List (UInt64 × UInt64)) :
    markOverlapsTrapping spans = some (markOverlaps spans) := by
  have keyed : ((List.range spans.length).mapM fun i =>
      within spans i 1 (spans.getD i (0, 0)).1) =
      some ((List.range spans.length).map fun i => (spans.getD i (0, 0)).1) :=
    mapM_eq_some fun i member => within_of_le (List.mem_range.mp member) _
  have key : ∀ i, ((List.range spans.length).map fun i => (spans.getD i (0, 0)).1).getD i 0 =
      (spans.getD i (0, 0)).1 := by
    intro i
    rw [List.getD_eq_getElem?_getD, List.getElem?_map]
    by_cases bound : i < spans.length
    · rw [List.getElem?_range bound]
      rfl
    · rw [List.getElem?_eq_none (by simpa using bound),
        List.getD_eq_getElem?_getD, List.getElem?_eq_none (by omega)]
      rfl
  have rounds : ∀ i ∈ (List.range spans.length).insertionSort fun i j =>
      (spans.getD i (0, 0)).1 ≤ (spans.getD j (0, 0)).1,
      ∀ state, SweepInside spans state →
        sweepStepTrapping spans state i = some (sweepStep spans state i) ∧
          SweepInside spans (sweepStep spans state i) :=
    fun i member state inside => sweepStepTrapping_eq
      (List.mem_range.mp ((List.mem_insertionSort _).mp member)) inside
  have start : SweepInside spans (List.replicate spans.length false, none) :=
    ⟨List.length_replicate, by simp⟩
  have swept := foldlM_eq_some rounds start
  simp only [markOverlapsTrapping, keyed, Option.bind_eq_bind, Option.bind_some, key, swept]
  rfl

theorem withIssuesTrapping_eq (header : Header) (found : List (Partition × UInt64 × UInt64)) :
    withIssuesTrapping header found = some (withIssues header found) := by
  rw [withIssuesTrapping, markOverlapsTrapping_eq]
  rfl

/-! ## The readers do not trap -/

section Readers

variable {size : Nat} {deviceSize : UInt64} {array : List UInt8}

/-- An entry that lies inside the array is read inside it. -/
theorem parseEntryTrapping_eq {i : Nat} (room : 128 ≤ size)
    (inside : i * size + size ≤ array.length) :
    parseEntryTrapping size deviceSize array i = exact (parseEntry size deviceSize array i) := by
  unfold parseEntryTrapping parseEntry
  dsimp only
  rw [bytes16Within, within_bind (by omega)]
  split
  · rfl
  · rw [bytes16Within, within_bind (by omega), u64Within, within_bind (by omega), u64Within,
      within_bind (by omega)]
    apply exact_bind rfl
    intro _ _
    rw [u64Within, within_bind (by omega)]
    apply exact_bind rfl
    intro start _
    apply exact_bind rfl
    intro sectors _
    apply exact_bind rfl
    intro length _
    rw [sliceWithin, within_bind (by omega)]
    rfl

theorem parseEntriesTrapping_eq (room : 128 ≤ size) {slots : List Nat}
    (inside : ∀ i ∈ slots, i * size + size ≤ array.length) :
    parseEntriesTrapping size deviceSize array slots =
      exact (parseEntries size deviceSize array slots) := by
  induction slots with
  | nil => rfl
  | cons i rest ih =>
      have later := ih fun j member => inside j (by simp [member])
      apply exact_bind (parseEntryTrapping_eq room (inside i (by simp)))
      intro entry _
      cases entry with
      | none => exact later
      | some entry => exact exact_bind later fun _ _ => rfl

end Readers

section Checksums

variable (crc32 : List UInt8 → UInt32)

/-- The fields of a header lie in any block a header may be read from. -/
theorem parseHeaderBlockTrapping_eq (sector : List UInt8) :
    parseHeaderBlockTrapping crc32 sector = exact (parseHeaderBlock crc32 sector) := by
  unfold parseHeaderBlockTrapping parseHeaderBlock
  apply exact_bind rfl
  intro _ long
  have large := refuseIf_eq_ok.mp long
  have field : ∀ {offset len : Nat}, offset + len ≤ 92 → offset + len ≤ sector.length := by
    omega
  rw [sliceWithin, within_bind (field (by decide))]
  apply exact_bind rfl
  intro _ _
  rw [u32Within, within_bind (field (by decide))]
  apply exact_bind rfl
  intro _ sized
  have declared := refuseIf_eq_ok.mp sized
  rw [not_not] at declared
  have covered : (slice sector 0 (u32At sector HeaderOffsets.headerSize).toNat).length =
      (u32At sector HeaderOffsets.headerSize).toNat := length_slice (by omega)
  have blanked : HeaderOffsets.headerCrc32 + 4 ≤
      (slice sector 0 (u32At sector HeaderOffsets.headerSize).toNat).length := by
    rw [covered]
    exact Nat.le_trans (by decide) declared.1
  have whole : (splice (slice sector 0 (u32At sector HeaderOffsets.headerSize).toNat)
      HeaderOffsets.headerCrc32 (List.replicate 4 0)).length =
      (u32At sector HeaderOffsets.headerSize).toNat := by
    rw [length_splice (by simpa using blanked), covered]
  rw [u32Within, within_bind (field (by decide)), sliceWithin, within_bind (by omega),
    within_bind blanked, sliceWithin, within_bind (by omega)]
  rw [slice_of_length whole]
  apply exact_bind rfl
  intro _ _
  rw [u32Within, within_bind (field (by decide))]
  apply exact_bind rfl
  intro _ _
  simp only [u32Within, u64Within, bytes16Within]
  rw [within_bind (field (by decide)), within_bind (field (by decide)),
    within_bind (field (by decide)), within_bind (field (by decide)),
    within_bind (field (by decide)), within_bind (field (by decide)),
    within_bind (field (by decide)), within_bind (field (by decide)),
    within_bind (field (by decide))]
  apply exact_bind rfl
  intro _ _
  apply exact_bind rfl
  intro _ _
  apply exact_bind rfl
  intro _ _
  rfl

variable {crc32}

theorem entrySize_of_parseHeaderBlock {sector : List UInt8} {header : Header}
    (parsed : parseHeaderBlock crc32 sector = .ok header) :
    128 ≤ header.partitionEntrySize.toNat := by
  obtain ⟨_, parsed⟩ := refuseIf_bind_eq_ok.mp parsed
  obtain ⟨_, parsed⟩ := refuseIf_bind_eq_ok.mp parsed
  obtain ⟨_, parsed⟩ := refuseIf_bind_eq_ok.mp parsed
  obtain ⟨_, parsed⟩ := refuseIf_bind_eq_ok.mp parsed
  obtain ⟨_, parsed⟩ := refuseIf_bind_eq_ok.mp parsed
  obtain ⟨range, parsed⟩ := refuseIf_bind_eq_ok.mp parsed
  obtain ⟨_, parsed⟩ := refuseIf_bind_eq_ok.mp parsed
  obtain ⟨_, parsed⟩ := refuseIf_bind_eq_ok.mp parsed
  cases parsed
  rw [not_not] at range
  exact UInt32.le_iff_toNat_le.mp range.1

variable (crc32)

/-- The size of an entry array fits a word. -/
theorem arrayBytes_inRange (header : Header) :
    header.numPartitionEntries.toUInt64.toNat * header.partitionEntrySize.toUInt64.toNat <
      2 ^ 64 := by
  have count := header.numPartitionEntries.toNat_lt
  have width := header.partitionEntrySize.toNat_lt
  rw [UInt32.toNat_toUInt64, UInt32.toNat_toUInt64]
  calc header.numPartitionEntries.toNat * header.partitionEntrySize.toNat
      ≤ (2 ^ 32 - 1) * (2 ^ 32 - 1) := Nat.mul_le_mul (by omega) (by omega)
    _ < 2 ^ 64 := by decide

/-- Every entry a header counts lies in the array the device gave. -/
theorem parseEntryArrayTrapping_eq {dev : BlockRead} {header : Header}
    (room : 128 ≤ header.partitionEntrySize.toNat) :
    parseEntryArrayTrapping crc32 dev header = exact (parseEntryArray crc32 dev header) := by
  have inRange := arrayBytes_inRange header
  have total := toNat_mul_of_lt inRange
  rw [UInt32.toNat_toUInt64, UInt32.toNat_toUInt64] at total
  unfold parseEntryArrayTrapping parseEntryArray
  rw [word_bind (checkedMul_of_lt inRange)]
  apply exact_bind rfl
  intro arrayOffset _
  apply exact_bind rfl
  intro arrayEnd _
  apply exact_bind rfl
  intro _ _
  apply exact_bind rfl
  intro array read
  have length := dev.length_readAt (read_eq_ok.mp read)
  rw [total] at length
  apply exact_bind rfl
  intro _ _
  have inside : ∀ i ∈ List.range header.numPartitionEntries.toNat,
      i * header.partitionEntrySize.toNat + header.partitionEntrySize.toNat ≤ array.length := by
    intro i member
    have place := List.mem_range.mp member
    rw [length, ← Nat.succ_mul]
    exact Nat.mul_le_mul_right _ place
  have entries := @parseEntriesTrapping_eq _ dev.sizeBytes _ room _ inside
  apply exact_bind entries
  intro found _
  rw [word_bind (withIssuesTrapping_eq header found)]
  rfl

theorem parseGptTrapping_eq (dev : BlockRead) (lba1 : List UInt8) :
    parseGptTrapping crc32 dev lba1 = exact (parseGpt crc32 dev lba1) := by
  apply exact_bind (parseHeaderBlockTrapping_eq crc32 lba1)
  intro header parsed
  apply exact_bind rfl
  intro _ _
  exact exact_bind (parseEntryArrayTrapping_eq crc32 (entrySize_of_parseHeaderBlock parsed))
    fun _ _ => rfl

/-- The last LBA of a device of at least two sectors. -/
theorem toNat_backupLba {total : UInt64} (large : ¬ total < 2 * sectorSize) :
    (total / sectorSize - 1).toNat = total.toNat / 512 - 1 ∧ 2 ≤ total.toNat / 512 := by
  have twoSectors : (2 * sectorSize).toNat = 1024 := rfl
  have one : (1 : UInt64).toNat = 1 := rfl
  have sectors : (total / sectorSize).toNat = total.toNat / 512 := by
    rw [UInt64.toNat_div, toNat_sectorSize]
  rw [UInt64.lt_iff_toNat_lt, twoSectors] at large
  rw [toNat_sub_of_le (by omega), sectors, one]
  omega

theorem parseBackupTrapping_eq (dev : BlockRead) :
    parseBackupTrapping crc32 dev = exact (parseBackup crc32 dev) := by
  apply exact_bind rfl
  intro _ enough
  obtain ⟨last, sectors⟩ := toNat_backupLba (refuseIf_eq_ok.mp enough)
  have bounded := dev.sizeBytes.toNat_lt
  have one : (1 : UInt64).toNat = 1 := rfl
  have count : (dev.sizeBytes / sectorSize).toNat = dev.sizeBytes.toNat / 512 := by
    rw [UInt64.toNat_div, toNat_sectorSize]
  dsimp only
  rw [word_bind (checkedSub_of_le (by omega)),
    word_bind (checkedMul_of_lt (by rw [last, toNat_sectorSize]; omega))]
  apply exact_bind rfl
  intro sector _
  apply exact_bind (parseHeaderBlockTrapping_eq crc32 sector)
  intro header parsed
  apply exact_bind rfl
  intro _ _
  exact exact_bind (parseEntryArrayTrapping_eq crc32 (entrySize_of_parseHeaderBlock parsed))
    fun _ _ => rfl

theorem validateBackupTrapping_eq (dev : BlockRead) (primary : List Partition) :
    validateBackupTrapping crc32 dev primary = some (validateBackup crc32 dev primary) := by
  unfold validateBackupTrapping validateBackup
  rw [parseBackupTrapping_eq]
  change some _ = some _
  rcases parseBackup crc32 dev with error | backup
  · cases error <;> rfl
  · rfl

theorem looksLike4knGptTrapping_eq (dev : BlockRead) :
    looksLike4knGptTrapping crc32 dev = some (looksLike4knGpt crc32 dev) := by
  unfold looksLike4knGptTrapping looksLike4knGpt
  rcases dev.readAt fourKLba1 4096 with error | block
  · rfl
  · dsimp only
    rw [parseHeaderBlockTrapping_eq]
    rfl

theorem recoverFromBackupTrapping_eq (dev : BlockRead) (primary : Error) :
    recoverFromBackupTrapping crc32 dev primary =
      exact (recoverFromBackup crc32 dev primary) := by
  unfold recoverFromBackupTrapping recoverFromBackup
  rw [parseBackupTrapping_eq]
  rcases parseBackup crc32 dev with error | parts <;> rfl

end Checksums

/-! ## The MBR -/

section Mbr

variable {lba0 : List UInt8}

theorem typeByteWithin_eq (whole : lba0.length = 512) {i : Nat}
    (member : i ∈ List.range MbrLayout.entryCount) :
    typeByteWithin lba0 i = some (typeByteAt lba0 i) := by
  have place : i < 4 := List.mem_range.mp member
  apply within_of_le
  simp only [MbrLayout.entryAt, MbrLayout.tableStart, MbrLayout.entrySize, MbrLayout.typeByte]
  omega

theorem isProtectiveTrapping_eq (whole : lba0.length = 512) :
    isProtectiveTrapping lba0 = some (isProtective lba0) := by
  rw [isProtectiveTrapping, mapM_eq_some fun _ member => typeByteWithin_eq whole member]
  rfl

theorem hasGptMarkerTrapping_eq (whole : lba0.length = 512) :
    hasGptMarkerTrapping lba0 = some (hasGptMarker lba0) := by
  rw [hasGptMarkerTrapping, mapM_eq_some fun _ member => typeByteWithin_eq whole member,
    hasGptMarker, Option.map_some, List.any_map]
  rfl

theorem hasBootSignatureTrapping_eq (whole : lba0.length = 512) :
    hasBootSignatureTrapping lba0 = some (hasBootSignature lba0) := by
  simp only [hasBootSignatureTrapping, byteWithin,
    within_of_le (show 510 + 1 ≤ lba0.length by omega),
    within_of_le (show 511 + 1 ≤ lba0.length by omega)]
  rfl

/-- The sectors an MBR entry names fit a word as bytes. -/
theorem toNat_mbrBytes (lba : UInt32) :
    (lba.toUInt64 * sectorSize).toNat = lba.toNat * 512 := by
  have bounded := lba.toNat_lt
  rw [toNat_lba_mul (by rw [UInt32.toNat_toUInt64]; omega), UInt32.toNat_toUInt64]

theorem checkedMul_mbrBytes (lba : UInt32) :
    checkedMul lba.toUInt64 sectorSize = some (lba.toUInt64 * sectorSize) := by
  have bounded := lba.toNat_lt
  apply checkedMul_of_lt
  rw [UInt32.toNat_toUInt64, toNat_sectorSize]
  omega

theorem parseMbrEntryTrapping_eq (whole : lba0.length = 512) (deviceSize : UInt64) {i : Nat}
    (member : i ∈ List.range MbrLayout.entryCount) :
    parseMbrEntryTrapping lba0 deviceSize i = some (parseMbrEntry lba0 deviceSize i) := by
  have place : i < 4 := List.mem_range.mp member
  have inside : MbrLayout.entryAt i + 16 ≤ lba0.length := by
    simp only [MbrLayout.entryAt, MbrLayout.tableStart, MbrLayout.entrySize]
    omega
  have start : MbrLayout.entryAt i + MbrLayout.startLba + 4 ≤ lba0.length := by
    simp only [MbrLayout.startLba]
    omega
  have count : MbrLayout.entryAt i + MbrLayout.sectorCount + 4 ≤ lba0.length := by
    simp only [MbrLayout.sectorCount]
    omega
  simp only [parseMbrEntryTrapping, typeByteWithin_eq whole member, byteWithin, u32Within,
    within_of_le (show MbrLayout.entryAt i + 1 ≤ lba0.length by omega), within_of_le start,
    within_of_le count, checkedMul_mbrBytes, Option.bind_eq_bind, Option.bind_some,
    parseMbrEntry]
  split
  · rfl
  · exact (apply_ite some _ _ _).symm

theorem parseMbrTrapping_eq (whole : lba0.length = 512) (deviceSize : UInt64) :
    parseMbrTrapping lba0 deviceSize = some (parseMbr lba0 deviceSize) := by
  rw [parseMbrTrapping, mapM_eq_some fun _ member => parseMbrEntryTrapping_eq whole _ member,
    Option.map_some, List.filterMap_map]
  rfl

end Mbr

/-! ## The probe does not trap -/

section Checksums

variable (crc32 : List UInt8 → UInt32) (dev : BlockRead) (consultBackup : Bool)

theorem probeGptTrapping_eq (lba1 : List UInt8) :
    probeGptTrapping crc32 dev consultBackup lba1 =
      exact (probeGpt crc32 dev consultBackup lba1) := by
  unfold probeGptTrapping probeGpt
  rw [parseGptTrapping_eq]
  generalize parseGpt crc32 dev lba1 = parsed
  rcases parsed with primary | parts
  · cases consultBackup with
    | true => exact recoverFromBackupTrapping_eq crc32 dev primary
    | false => rfl
  · cases consultBackup with
    | true => exact word_bind (validateBackupTrapping_eq crc32 dev parts) _
    | false => rfl

theorem probeMbrTrapping_eq {lba0 : List UInt8} (whole : lba0.length = 512) :
    probeMbrTrapping crc32 dev consultBackup lba0 (hasBootSignature lba0) =
      exact (probeMbr crc32 dev consultBackup lba0) := by
  have asked : (if hasGptMarker lba0 then looksLike4knGptTrapping crc32 dev else some none) =
      some (if hasGptMarker lba0 then looksLike4knGpt crc32 dev else none) := by
    split
    · exact looksLike4knGptTrapping_eq crc32 dev
    · rfl
  unfold probeMbrTrapping probeMbr
  split
  · rfl
  · rw [word_bind (hasGptMarkerTrapping_eq whole), word_bind asked]
    rcases (if hasGptMarker lba0 then looksLike4knGpt crc32 dev else none) with _ | why
    · dsimp only
      rw [word_bind (isProtectiveTrapping_eq whole)]
      split
      · cases consultBackup with
        | true => exact recoverFromBackupTrapping_eq crc32 dev _
        | false => rfl
      · exact word_bind (parseMbrTrapping_eq whole _) _
    · rfl

theorem length_readLba1 {lba1 : List UInt8} (read : readLba1 dev = .ok lba1) :
    lba1.length = 512 := by
  have zeros : ∀ (ended : Bool) (error : BlockError),
      (if ended then Except.ok (List.replicate 512 0) else .error (.block error)) =
        (.ok lba1 : Except Error (List UInt8)) → lba1.length = 512 := by
    intro ended error same
    cases ended with
    | true =>
        cases same
        exact List.length_replicate
    | false => cases same
  unfold readLba1 at read
  split at read
  next found =>
    cases read
    exact dev.length_readAt found
  next error _ => exact zeros _ error read

theorem probeInnerTrapping_eq :
    probeInnerTrapping crc32 dev consultBackup = exact (probeInner crc32 dev consultBackup) := by
  apply exact_bind rfl
  intro lba0 first
  have whole := dev.length_readAt (read_eq_ok.mp first)
  apply exact_bind rfl
  intro lba1 second
  have large := length_readLba1 dev second
  rw [word_bind (hasBootSignatureTrapping_eq whole), sliceWithin, within_bind (by omega)]
  split
  · exact probeGptTrapping_eq crc32 dev consultBackup lba1
  · exact probeMbrTrapping_eq crc32 dev consultBackup whole

theorem probeTrapping_eq : probeTrapping crc32 dev = exact (probe crc32 dev) := by
  rw [probeTrapping, probeInnerTrapping_eq, probe]
  cases probeInner crc32 dev false <;> rfl

end Checksums

end DiskPartitions
