import DiskPartitions.GptCommit
import DiskPartitions.TableProbe

/-!
# A committed GPT reads back

Both copies of a committed table parse to the partitions that were committed, in
slot order, so a probe reports the primary copy and finds the backup in agreement.
-/

namespace DiskPartitions

open Slices LittleEndian CheckedWords Refusals WriteJournal KeyOrder

/-! ## Parsing an entry array -/

/-- A header whose entry array has the shape `g` and the usable range `usable`. -/
structure Describes (header : Header) (g : GptGeometry) (usable : UInt64 × UInt64) : Prop where
  count : header.numPartitionEntries = g.numEntries
  size : header.partitionEntrySize = g.entrySize
  usable : (header.firstUsableLba, header.lastUsableLba) = usable

section Parsing

variable (crc32 : List UInt8 → UInt32) {dev : ByteDevice} {header : Header} {g : GptGeometry}
  {usable : UInt64 × UInt64}

/-- Parsing the array a header describes reads it, checks its sum and decodes it. -/
theorem parseEntryArray_eq (describes : Describes header g usable)
    (inside : header.partitionEntryLba.toNat * 512 + g.arrayBytes.toNat ≤ dev.bytes.length) :
    parseEntryArray crc32 dev header = (do
      let array := slice dev.bytes (header.partitionEntryLba.toNat * 512) g.arrayBytes.toNat
      refuseIf (crc32 array ≠ header.partitionEntryArrayCrc32) .gptEntriesCrc
      let found ← parseEntries g.entrySize.toNat dev.sizeBytes array
        (List.range g.numEntries.toNat)
      return (withIssues header found, array)) := by
  have deviceLength := dev.length_lt
  have offsetValue : (header.partitionEntryLba * sectorSize).toNat =
      header.partitionEntryLba.toNat * 512 := toNat_lba_mul (by omega)
  have offset : checkedMul header.partitionEntryLba sectorSize =
      some (header.partitionEntryLba * sectorSize) :=
    checkedMul_eq_some.mpr (by rw [offsetValue, toNat_sectorSize])
  have bytes : header.numPartitionEntries.toUInt64 * header.partitionEntrySize.toUInt64 =
      g.arrayBytes := by
    rw [describes.count, describes.size]
    rfl
  have stopValue : (header.partitionEntryLba * sectorSize + g.arrayBytes).toNat =
      header.partitionEntryLba.toNat * 512 + g.arrayBytes.toNat := by
    rw [toNat_add_of_lt (by omega), offsetValue]
  have stop : checkedAdd (header.partitionEntryLba * sectorSize) g.arrayBytes =
      some (header.partitionEntryLba * sectorSize + g.arrayBytes) :=
    checkedAdd_eq_some.mpr (by rw [stopValue, offsetValue])
  have within : ¬ (dev.toBlockRead.sizeBytes ≠ 0 ∧
      dev.toBlockRead.sizeBytes < header.partitionEntryLba * sectorSize + g.arrayBytes) := by
    rintro ⟨_, past⟩
    rw [UInt64.lt_iff_toNat_lt, stopValue] at past
    change dev.sizeBytes.toNat < _ at past
    rw [ByteDevice.toNat_sizeBytes] at past
    omega
  have read : BlockRead.read dev (header.partitionEntryLba.toNat * 512) g.arrayBytes.toNat =
      .ok (slice dev.bytes (header.partitionEntryLba.toNat * 512) g.arrayBytes.toNat) := by
    change (dev.readAt _ _).mapError Error.block = _
    rw [ByteDevice.readAt_of_le inside]
    rfl
  simp only [parseEntryArray, bytes, offset, stop, orRefuse, ok_bind, refuseIf_of_not within,
    offsetValue, read]
  rw [describes.count, describes.size]
  rfl

/-- An array that fails its checksum is refused. -/
theorem parseEntryArray_of_crc (describes : Describes header g usable)
    (inside : header.partitionEntryLba.toNat * 512 + g.arrayBytes.toNat ≤ dev.bytes.length)
    (damaged : crc32 (slice dev.bytes (header.partitionEntryLba.toNat * 512)
      g.arrayBytes.toNat) ≠ header.partitionEntryArrayCrc32) :
    parseEntryArray crc32 dev header = .error .gptEntriesCrc := by
  rw [parseEntryArray_eq crc32 describes inside]
  simp only [refuseIf, if_pos damaged]
  rfl

/-- The array of a seating parses to its partitions. -/
theorem parseEntryArray_seated {seats : List (Partition × UInt32)} {tails : EntryTails}
    (describes : Describes header g usable)
    (inside : header.partitionEntryLba.toNat * 512 + g.arrayBytes.toNat ≤ dev.bytes.length)
    (usableOn : g.UsableOn (dev.bytes.length / 512) usable) (seating : Seating g usable seats)
    (held : slice dev.bytes (header.partitionEntryLba.toNat * 512) g.arrayBytes.toNat =
      seatedArray g tails seats)
    (checked : crc32 (seatedArray g tails seats) = header.partitionEntryArrayCrc32) :
    parseEntryArray crc32 dev header =
      .ok (storedBySlot g seats, seatedArray g tails seats) := by
  have total := totalSectors_lt dev
  have last := usableOn.last_lt
  have each : ∀ i ∈ List.range g.numEntries.toNat,
      parseEntry g.entrySize.toNat dev.sizeBytes (seatedArray g tails seats) i = _ :=
    fun i member => parseEntry_seatedArray seating tails (by omega)
      (by rw [ByteDevice.toNat_sizeBytes]; omega) (List.mem_range.mp member)
  have found := parseEntries_eq_ok each
  have ordered : (List.range g.numEntries.toNat).filterMap (fun i =>
      (itemAt seatIndex seats i).map fun seat => (stored seat.1 seat.2, seat.1.span)) =
      (byKey seatIndex g.numEntries.toNat seats).map
        fun seat => (stored seat.1 seat.2, seat.1.span) := by
    rw [byKey, List.map_filterMap]
  rw [parseEntryArray_eq crc32 describes inside, held]
  simp only [refuseIf, if_neg (not_not.mpr checked), ok_bind, found]
  rw [ordered, withIssues_seats seating describes.usable]
  rfl

end Parsing

/-! ## The two copies of a table -/

section Copies

variable (crc32 : List UInt8 → UInt32) {dev state : ByteDevice} {partitions : List Partition}
  {diskGuid : Guid} {g : GptGeometry} {tails : EntryTails} {plan : GptPlan}

/-- The device holds the primary header of a plan. -/
def HoldsPrimary (plan : GptPlan) (diskGuid : Guid) (g : GptGeometry) (state : ByteDevice) :
    Prop :=
  slice state.bytes 512 512 = plan.primary crc32 diskGuid g (state.sizeBytes / sectorSize)

/-- The device holds the primary array of a plan. -/
def HoldsArray (plan : GptPlan) (g : GptGeometry) (state : ByteDevice) : Prop :=
  slice state.bytes (g.entryLba.toNat * 512) g.arrayBytes.toNat = plan.array

/-- The device holds the backup array and the backup header of a plan. -/
structure HoldsBackup (plan : GptPlan) (diskGuid : Guid) (g : GptGeometry)
    (state : ByteDevice) : Prop where
  array : slice state.bytes ((state.bytes.length / 512 - 1 - g.arraySectors.toNat) * 512)
    g.arrayBytes.toNat = plan.array
  header : slice state.bytes ((state.bytes.length / 512 - 1) * 512) 512 =
    plan.backup crc32 diskGuid g (state.sizeBytes / sectorSize)

theorem describes_builtHeader (diskGuid : Guid) (g : GptGeometry) (myLba alternateLba entryLba : UInt64)
    (usable : UInt64 × UInt64) (entryArrayCrc : UInt32) :
    Describes (builtHeader myLba alternateLba entryLba usable diskGuid entryArrayCrc g crc32) g
      usable :=
  ⟨rfl, rfl, rfl⟩

section Accepted

variable (accepted : plan.Accepted dev partitions g tails)
  (sameLength : state.bytes.length = dev.bytes.length)

include accepted sameLength

omit accepted in
theorem sizeBytes_eq : state.sizeBytes = dev.sizeBytes := by
  rw [← UInt64.toNat_inj, ByteDevice.toNat_sizeBytes, ByteDevice.toNat_sizeBytes, sameLength]

/-- A whole primary copy parses to the partitions of the plan. -/
theorem parseGpt_of_holds (primary : HoldsPrimary crc32 plan diskGuid g state)
    (array : HoldsArray plan g state) :
    parseGpt crc32 state (slice state.bytes 512 512) =
      .ok (storedBySlot g (partitions.zip plan.slots)) := by
  have usableOn := accepted.usableOn
  have room := usableOn.room
  have bytes := g.arrayBytes_le
  rw [← sameLength] at usableOn room
  have held : slice state.bytes (g.entryLba.toNat * 512) g.arrayBytes.toNat =
      seatedArray g tails (partitions.zip plan.slots) := array.trans accepted.array_eq
  have parsed := parseEntryArray_seated crc32
    (describes_builtHeader crc32 diskGuid g 1 (dev.sizeBytes / sectorSize - 1) g.entryLba
      plan.usable (crc32 plan.array))
    (by change g.entryLba.toNat * 512 + _ ≤ state.bytes.length; omega) usableOn
    accepted.seating held
    (congrArg crc32 accepted.array_eq.symm)
  unfold HoldsPrimary at primary
  rw [sizeBytes_eq sameLength] at primary
  rw [primary, parseGpt, parseHeader_primary crc32 diskGuid accepted, ok_bind, parsed]
  rfl

/-- A primary header over an array that fails its checksum is an error. -/
theorem parseGpt_of_damaged (primary : HoldsPrimary crc32 plan diskGuid g state)
    (damaged : crc32 (slice state.bytes (g.entryLba.toNat * 512) g.arrayBytes.toNat) ≠
      crc32 plan.array) :
    parseGpt crc32 state (slice state.bytes 512 512) = .error .gptEntriesCrc := by
  have room := accepted.usableOn.room
  have bytes := g.arrayBytes_le
  rw [← sameLength] at room
  have parsed := parseEntryArray_of_crc crc32
    (describes_builtHeader crc32 diskGuid g 1 (dev.sizeBytes / sectorSize - 1) g.entryLba
      plan.usable (crc32 plan.array))
    (by change g.entryLba.toNat * 512 + _ ≤ state.bytes.length; omega) damaged
  unfold HoldsPrimary at primary
  rw [sizeBytes_eq sameLength] at primary
  rw [primary, parseGpt, parseHeader_primary crc32 diskGuid accepted, ok_bind, parsed]
  rfl

/-- A whole backup copy parses to the partitions of the plan. -/
theorem parseBackup_of_holds (backup : HoldsBackup crc32 plan diskGuid g state) :
    parseBackup crc32 state = .ok (storedBySlot g (partitions.zip plan.slots)) := by
  have usableOn := accepted.usableOn
  have room := usableOn.room
  have bytes := g.arrayBytes_le
  have total := totalSectors_lt dev
  have last := toNat_lastLba accepted
  have backupLba := toNat_backupEntriesLba accepted
  have size := sizeBytes_eq sameLength
  obtain ⟨array, header⟩ := backup
  rw [sameLength] at array header
  rw [size] at header
  rw [← sameLength] at usableOn
  have held : slice state.bytes ((dev.bytes.length / 512 - 1 - g.arraySectors.toNat) * 512)
      g.arrayBytes.toNat = seatedArray g tails (partitions.zip plan.slots) :=
    array.trans accepted.array_eq
  have parsed := parseEntryArray_seated crc32
    (describes_builtHeader crc32 diskGuid g (dev.sizeBytes / sectorSize - 1) 1
      (dev.sizeBytes / sectorSize - 1 - g.arraySectors) plan.usable (crc32 plan.array))
    (by
      change (dev.sizeBytes / sectorSize - 1 - g.arraySectors).toNat * 512 + _ ≤
        state.bytes.length
      rw [backupLba]
      omega) usableOn accepted.seating
    (by
      change slice state.bytes
        ((dev.sizeBytes / sectorSize - 1 - g.arraySectors).toNat * 512) _ = _
      rw [backupLba]
      exact held)
    (congrArg crc32 accepted.array_eq.symm)
  have large : ¬ dev.sizeBytes < 2 * sectorSize := by
    have two : (2 * sectorSize).toNat = 1024 := rfl
    rw [UInt64.lt_iff_toNat_lt, ByteDevice.toNat_sizeBytes, two]
    omega
  have read : BlockRead.read state ((dev.sizeBytes / sectorSize - 1) * sectorSize).toNat 512 =
      .ok (plan.backup crc32 diskGuid g (dev.sizeBytes / sectorSize)) := by
    change (state.readAt _ _).mapError Error.block = _
    rw [toNat_lba_mul (by omega), last, ByteDevice.readAt_of_le (by omega), header]
    rfl
  have reported : state.toBlockRead.sizeBytes = dev.sizeBytes := size
  have ownLba : ¬ ((builtHeader (dev.sizeBytes / sectorSize - 1) 1
      (dev.sizeBytes / sectorSize - 1 - g.arraySectors) plan.usable diskGuid (crc32 plan.array)
      g crc32).myLba ≠ dev.sizeBytes / sectorSize - 1) := not_not.mpr rfl
  simp only [parseBackup, reported, refuseIf_of_not large, ok_bind, read,
    parseHeader_backup crc32 diskGuid accepted, refuseIf_of_not ownLba, parsed]
  rfl

/-- A device that holds a primary header is probed as a GPT. -/
theorem probeInner_of_primary (primary : HoldsPrimary crc32 plan diskGuid g state)
    (consultBackup : Bool) :
    probeInner crc32 state consultBackup =
      probeGpt crc32 state consultBackup (slice state.bytes 512 512) := by
  have room := accepted.usableOn.room
  have signature : slice (plan.primary crc32 diskGuid g (state.sizeBytes / sectorSize))
      HeaderOffsets.signature gptSignature.length = gptSignature :=
    slice_buildHeader crc32 ⟨HeaderOffsets.signature, gptSignature⟩ (by simp [headerWrites])
  rw [probeInner_eq crc32 consultBackup (by omega)]
  apply if_pos
  rw [primary]
  exact signature

end Accepted

end Copies

/-! ## Probing a committed device -/

theorem comparePartitions_self (p : Partition) : comparePartitions p p = .ok := by
  simp [comparePartitions]

theorem compareLists_self (parts : List Partition) : compareLists parts parts = .ok := by
  induction parts with
  | nil => rfl
  | cons p parts ih => rw [compareLists, comparePartitions_self, ih]

theorem validateBackup_of_same {crc32 : List UInt8 → UInt32} {dev : BlockRead}
    {parts : List Partition} (same : parseBackup crc32 dev = .ok parts) :
    validateBackup crc32 dev parts = .ok := by
  simp only [validateBackup, same, ne_eq, not_true_eq_false, if_false, compareLists_self]

section Committed

variable (crc32 : List UInt8 → UInt32) {dev : ByteDevice} {partitions : List Partition}
  (diskGuid : Guid) {g : GptGeometry} {tails : EntryTails} {plan : GptPlan}
  (accepted : plan.Accepted dev partitions g tails)

include accepted

theorem holdsPrimary_committed :
    HoldsPrimary crc32 plan diskGuid g (plan.committed crc32 diskGuid accepted) := by
  unfold HoldsPrimary
  rw [slice_committed_primary, sizeBytes_eq (length_committed crc32 diskGuid accepted)]

theorem holdsArray_committed :
    HoldsArray plan g (plan.committed crc32 diskGuid accepted) :=
  slice_committed_array crc32 diskGuid accepted

theorem holdsBackup_committed :
    HoldsBackup crc32 plan diskGuid g (plan.committed crc32 diskGuid accepted) where
  array := by
    rw [length_committed]
    exact slice_committed_backupArray crc32 diskGuid accepted
  header := by
    rw [length_committed, sizeBytes_eq (length_committed crc32 diskGuid accepted)]
    exact slice_committed_backup crc32 diskGuid accepted

/-- The partitions of a plan in slot order are the seated ones, each once. -/
theorem storedBySlot_perm :
    (storedBySlot g (partitions.zip plan.slots)).Perm
      (List.zipWith stored partitions plan.slots) := by
  rw [← List.map_uncurry_zip_eq_zipWith]
  exact (byKey_perm accepted.seating.distinct accepted.seating.bounded).map _

omit accepted in
theorem storedBySlot_pairwise (g : GptGeometry) (seats : List (Partition × UInt32)) :
    (storedBySlot g seats).Pairwise fun p q =>
      ∃ i j, p.slot = some i ∧ q.slot = some j ∧ i < j := by
  unfold storedBySlot
  rw [List.pairwise_map]
  exact (pairwise_byKey g.numEntries.toNat seats).imp fun less => ⟨_, _, rfl, rfl, less⟩

/-- Both copies of a committed table parse, and a probe reads the primary one. -/
theorem probe_committed :
    probe crc32 (plan.committed crc32 diskGuid accepted) =
      .ok (.gpt, storedBySlot g (partitions.zip plan.slots)) ∧
    parseBackup crc32 (plan.committed crc32 diskGuid accepted) =
      .ok (storedBySlot g (partitions.zip plan.slots)) ∧
    probeWithStatus crc32 (plan.committed crc32 diskGuid accepted) =
      .ok (.gpt, storedBySlot g (partitions.zip plan.slots), .primary) := by
  have sameLength := length_committed crc32 diskGuid accepted
  have primary := holdsPrimary_committed crc32 diskGuid accepted
  have parsed := parseGpt_of_holds crc32 accepted sameLength primary
    (holdsArray_committed crc32 diskGuid accepted)
  have backup := parseBackup_of_holds crc32 accepted sameLength
    (holdsBackup_committed crc32 diskGuid accepted)
  refine ⟨?_, backup, ?_⟩
  · rw [probe, probeInner_of_primary crc32 accepted sameLength primary, probeGpt, parsed]
    rfl
  · rw [probeWithStatus, probeInner_of_primary crc32 accepted sameLength primary, probeGpt,
      parsed]
    simp only [if_true]
    rw [validateBackup_of_same backup]
    rfl

end Committed

/-- What a successful commit wrote, a probe reads: the committed partitions in slot
order, from the primary copy and from the backup alike. -/
theorem probe_writeGpt (crc32 : List UInt8 → UInt32) {dev after : ByteDevice}
    {partitions : List Partition} {diskGuid : Guid} {g : GptGeometry} {tails : EntryTails}
    {lba0 : List ReservedEntry} {slots : List UInt32}
    (written : (writeGptAssigningSlots crc32 partitions diskGuid g tails lba0).exec dev =
      (.ok slots, after)) :
    slots.length = partitions.length ∧
      ∃ parts : List Partition,
        parts.Perm (List.zipWith stored partitions slots) ∧
        (parts.Pairwise fun p q => ∃ i j, p.slot = some i ∧ q.slot = some j ∧ i < j) ∧
        probe crc32 after = .ok (.gpt, parts) ∧
        parseBackup crc32 after = .ok parts ∧
        probeWithStatus crc32 after = .ok (.gpt, parts, .primary) := by
  obtain ⟨plan, accepted, rfl, rfl⟩ := plan_of_writeGpt crc32 written
  exact ⟨accepted.length_slots, storedBySlot g (partitions.zip plan.slots),
    storedBySlot_perm accepted, storedBySlot_pairwise g _, probe_committed crc32 diskGuid accepted⟩

/-- The small disk reads back its partition in slot 0. -/
theorem probe_writeGpt_smallPartition :
    ∃ after, (writeGptAssigningSlots CyclicSums.ieee [smallPartition] unusedTypeGuid
        smallGeometry (fun _ => none) []).exec eightSectors = (.ok [0], after) ∧
      probe CyclicSums.ieee after = .ok (.gpt, [stored smallPartition 0]) := by
  obtain ⟨after, written⟩ := exists_writeGpt CyclicSums.ieee unusedTypeGuid gptPlan_eightSectors
  obtain ⟨_, parts, perm, _, probed, _⟩ := probe_writeGpt CyclicSums.ieee written
  have same : parts = [stored smallPartition 0] := List.perm_singleton.mp perm
  exact ⟨after, written, same ▸ probed⟩

end DiskPartitions
