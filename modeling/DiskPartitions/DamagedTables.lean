import DiskPartitions.CyclicSums
import DiskPartitions.GptCrash

/-!
# A committed GPT that is damaged

A stray write of up to four bytes lands somewhere past LBA 0 of a disk with a committed table.
The checksums catch it wherever they cover it, and then the other copy is whole.
-/

namespace DiskPartitions

open Slices LittleEndian CheckedWords Refusals WriteJournal

/-! ## Damaged headers -/

section Headers

variable {sector damaged : List UInt8}

theorem field_slice (bytes : List UInt8) {offset width size : Nat} (inside : offset + width ≤ size) :
    field (slice bytes 0 size) offset width = field bytes offset width := by
  unfold field
  rw [slice_slice inside, Nat.zero_add]

/-- A header is parsed from the bytes it says it has. -/
theorem parseHeaderBlock_congr (crc32 : List UInt8 → UInt32) (length : damaged.length = sector.length)
    (size : 92 ≤ (u32At sector HeaderOffsets.headerSize).toNat)
    (head : slice damaged 0 (u32At sector HeaderOffsets.headerSize).toNat =
      slice sector 0 (u32At sector HeaderOffsets.headerSize).toNat) :
    parseHeaderBlock crc32 damaged = parseHeaderBlock crc32 sector := by
  have fields : ∀ offset width, offset + width ≤ 92 →
      field damaged offset width = field sector offset width := by
    intro offset width inside
    have within := Nat.le_trans inside size
    rw [← field_slice damaged within, head, field_slice sector within]
  have slices : ∀ offset width, offset + width ≤ 92 →
      slice damaged offset width = slice sector offset width := by
    intro offset width inside
    have part := congrArg (slice · offset width) head
    simp only [slice_slice (Nat.le_trans inside size), Nat.zero_add] at part
    exact part
  have words : ∀ offset, offset + 4 ≤ 92 → u32At damaged offset = u32At sector offset := by
    intro offset inside
    unfold u32At
    rw [fields _ _ inside]
  have longs : ∀ offset, offset + 8 ≤ 92 → u64At damaged offset = u64At sector offset := by
    intro offset inside
    unfold u64At
    rw [fields _ _ inside]
  have guid : bytes16At damaged HeaderOffsets.diskGuid = bytes16At sector HeaderOffsets.diskGuid := by
    unfold bytes16At
    simp only [slices HeaderOffsets.diskGuid 16 (by decide)]
  unfold parseHeaderBlock
  simp only [length, slices HeaderOffsets.signature 8 (by decide),
    words HeaderOffsets.headerSize (by decide), head, words HeaderOffsets.headerCrc32 (by decide),
    words HeaderOffsets.revision (by decide), words HeaderOffsets.partitionEntrySize (by decide),
    words HeaderOffsets.numPartitionEntries (by decide),
    words HeaderOffsets.partitionEntryArrayCrc32 (by decide),
    longs HeaderOffsets.myLba (by decide), longs HeaderOffsets.alternateLba (by decide),
    longs HeaderOffsets.firstUsableLba (by decide), longs HeaderOffsets.lastUsableLba (by decide),
    longs HeaderOffsets.partitionEntryLba (by decide), guid]

/-- The bytes of a header that its checksum covers, the checksum itself read as zero. -/
def headerForCrc (sector : List UInt8) (size : Nat) : List UInt8 :=
  splice (slice sector 0 size) HeaderOffsets.headerCrc32 (List.replicate 4 0)

/-- What the checksum covers is what lies before it and behind it. -/
theorem headerForCrc_congr {size : Nat} (covers : 92 ≤ size)
    (front : slice damaged 0 HeaderOffsets.headerCrc32 = slice sector 0 HeaderOffsets.headerCrc32)
    (back : slice damaged (HeaderOffsets.headerCrc32 + 4) (size - (HeaderOffsets.headerCrc32 + 4)) =
      slice sector (HeaderOffsets.headerCrc32 + 4) (size - (HeaderOffsets.headerCrc32 + 4))) :
    headerForCrc damaged size = headerForCrc sector size := by
  have parted : ∀ bytes : List UInt8, headerForCrc bytes size =
      slice bytes 0 HeaderOffsets.headerCrc32 ++ List.replicate 4 0 ++
        slice bytes (HeaderOffsets.headerCrc32 + 4) (size - (HeaderOffsets.headerCrc32 + 4)) := by
    intro bytes
    have within : HeaderOffsets.headerCrc32 ≤ size := Nat.le_trans (by decide) covers
    rw [headerForCrc, Slices.splice, List.length_replicate]
    simp only [slice, List.drop_zero]
    rw [List.take_take, Nat.min_eq_left within, List.drop_take]
  rw [parted, parted, front, back]

/-- A header whose covered bytes differ only where its checksum is. -/
theorem slice_headerForCrc_inj {size : Nat} (covers : 92 ≤ size) (long : size ≤ sector.length)
    (length : damaged.length = sector.length)
    (crc : slice damaged HeaderOffsets.headerCrc32 4 = slice sector HeaderOffsets.headerCrc32 4)
    (same : headerForCrc damaged size = headerForCrc sector size) :
    slice damaged 0 size = slice sector 0 size := by
  have restored : ∀ bytes : List UInt8, size ≤ bytes.length → slice bytes 0 size =
      splice (headerForCrc bytes size) HeaderOffsets.headerCrc32
        (slice bytes HeaderOffsets.headerCrc32 4) := by
    intro bytes inside
    have width : (slice bytes 0 size).length = size := length_slice (by omega)
    have four : HeaderOffsets.headerCrc32 + 4 ≤ size := Nat.le_trans (by decide) covers
    have part : slice (slice bytes 0 size) HeaderOffsets.headerCrc32 4 =
        slice bytes HeaderOffsets.headerCrc32 4 := by
      rw [slice_slice four, Nat.zero_add]
    have count : (slice bytes HeaderOffsets.headerCrc32 4).length = 4 := length_slice (by omega)
    unfold headerForCrc
    rw [splice_splice_self (by rw [width, List.length_replicate]; exact four)
      (by rw [count, List.length_replicate]), ← part, splice_slice_self (by rw [width]; exact four)]
  rw [restored damaged (length ▸ long), restored sector long, same, crc]

theorem BurstAt.headerForCrc {start size : Nat} (burst : CyclicSums.BurstAt start damaged sector)
    (covers : 92 ≤ size) (long : size ≤ sector.length) :
    CyclicSums.BurstAt (start - 0) (headerForCrc damaged size) (headerForCrc sector size) := by
  apply (burst.slice 0 size).splice
  rw [length_slice (by omega), List.length_replicate]
  exact Nat.le_trans (by decide) covers

/-- A header has the size it says. -/
theorem headerSize_of_parsed {crc32 : List UInt8 → UInt32} {header : Header}
    (parsed : parseHeaderBlock crc32 sector = .ok header) :
    header.headerSize = u32At sector HeaderOffsets.headerSize := by
  unfold parseHeaderBlock at parsed
  obtain ⟨-, parsed⟩ := refuseIf_bind_eq_ok.mp parsed
  obtain ⟨-, parsed⟩ := refuseIf_bind_eq_ok.mp parsed
  obtain ⟨-, parsed⟩ := refuseIf_bind_eq_ok.mp parsed
  obtain ⟨-, parsed⟩ := refuseIf_bind_eq_ok.mp parsed
  obtain ⟨-, parsed⟩ := refuseIf_bind_eq_ok.mp parsed
  obtain ⟨-, parsed⟩ := refuseIf_bind_eq_ok.mp parsed
  obtain ⟨-, parsed⟩ := refuseIf_bind_eq_ok.mp parsed
  obtain ⟨-, parsed⟩ := refuseIf_bind_eq_ok.mp parsed
  cases parsed
  rfl

/-- A header that a burst changes, but neither its signature nor its size nor only a part of its
checksum, fails the checksum. -/
theorem parseHeaderBlock_damaged {header : Header} {start : Nat}
    (parsed : parseHeaderBlock CyclicSums.ieee sector = .ok header)
    (burst : CyclicSums.BurstAt start damaged sector)
    (signature : slice damaged HeaderOffsets.signature 8 = slice sector HeaderOffsets.signature 8)
    (size : slice damaged HeaderOffsets.headerSize 4 = slice sector HeaderOffsets.headerSize 4)
    (crc : slice damaged HeaderOffsets.headerCrc32 4 = slice sector HeaderOffsets.headerCrc32 4 ∨
      headerForCrc damaged header.headerSize.toNat = headerForCrc sector header.headerSize.toNat)
    (changed : slice damaged 0 header.headerSize.toNat ≠ slice sector 0 header.headerSize.toNat) :
    parseHeaderBlock CyclicSums.ieee damaged = .error .gptHeaderCrc := by
  have sized : u32At damaged HeaderOffsets.headerSize = u32At sector HeaderOffsets.headerSize := by
    unfold u32At field
    rw [size]
  rw [headerSize_of_parsed parsed] at crc changed
  unfold parseHeaderBlock at parsed
  obtain ⟨long, parsed⟩ := refuseIf_bind_eq_ok.mp parsed
  obtain ⟨signed, parsed⟩ := refuseIf_bind_eq_ok.mp parsed
  obtain ⟨range, parsed⟩ := refuseIf_bind_eq_ok.mp parsed
  obtain ⟨summed, -⟩ := refuseIf_bind_eq_ok.mp parsed
  rw [not_not] at summed range
  have passed : CyclicSums.ieee (headerForCrc sector
      (u32At sector HeaderOffsets.headerSize).toNat) = u32At sector HeaderOffsets.headerCrc32 :=
    summed
  have fails : CyclicSums.ieee (headerForCrc damaged (u32At sector HeaderOffsets.headerSize).toNat) ≠
      u32At damaged HeaderOffsets.headerCrc32 := by
    intro passes
    apply changed
    rcases crc with stored | covered
    · have narrow := BurstAt.headerForCrc burst range.1 range.2
      refine slice_headerForCrc_inj range.1 range.2 burst.length stored (narrow.eq_of_ieee ?_)
      rw [passes, passed]
      unfold u32At field
      rw [stored]
    · have stored : u32At damaged HeaderOffsets.headerCrc32 =
          u32At sector HeaderOffsets.headerCrc32 := by
        rw [← passes, covered, passed]
      refine slice_headerForCrc_inj range.1 range.2 burst.length ?_ covered
      have inside : HeaderOffsets.headerCrc32 + 4 ≤ sector.length :=
        Nat.le_trans (by decide) (Nat.le_of_not_lt long)
      rw [← u32Bytes_u32At inside, ← u32Bytes_u32At (burst.length ▸ inside), stored]
  unfold headerForCrc at fails
  unfold parseHeaderBlock
  simp only [burst.length, signature, sized]
  rw [refuseIf_of_not long, ok_bind, refuseIf_of_not signed, ok_bind,
    refuseIf_of_not (not_not.mpr range), ok_bind, refuseIf, if_pos fails]
  rfl

end Headers

/-! ## Damaged copies -/

section Copies

variable (crc32 : List UInt8 → UInt32) {dev state : ByteDevice} {partitions : List Partition}
  {diskGuid : Guid} {g : GptGeometry} {tails : EntryTails} {plan : GptPlan}
  (accepted : plan.Accepted dev partitions g tails)
  (sameLength : state.bytes.length = dev.bytes.length) {lba1 : List UInt8}

include accepted sameLength

/-- What a primary header leads to depends on the array it stands over. -/
theorem parseGpt_of_parsed (parsed : parseHeader crc32 lba1 =
      parseHeader crc32 (plan.primary crc32 diskGuid g (dev.sizeBytes / sectorSize))) :
    (HoldsArray plan g state → parseGpt crc32 state lba1 =
        .ok (storedBySlot g (partitions.zip plan.slots))) ∧
      (crc32 (slice state.bytes (g.entryLba.toNat * 512) g.arrayBytes.toNat) ≠
        crc32 plan.array → parseGpt crc32 state lba1 = .error .gptEntriesCrc) := by
  have usableOn := accepted.usableOn
  have room := usableOn.room
  have bytes := g.arrayBytes_le
  rw [← sameLength] at usableOn room
  have describes := describes_builtHeader crc32 diskGuid g 1 (dev.sizeBytes / sectorSize - 1)
    g.entryLba plan.usable (crc32 plan.array)
  have inside : g.entryLba.toNat * 512 + g.arrayBytes.toNat ≤ state.bytes.length := by omega
  rw [parseHeader_primary crc32 diskGuid accepted] at parsed
  constructor
  · intro array
    have held := parseEntryArray_seated crc32 describes inside usableOn accepted.seating
      (array.trans accepted.array_eq) (congrArg crc32 accepted.array_eq.symm)
    rw [parseGpt, parsed, ok_bind, held]
    rfl
  · intro damaged
    have refused := parseEntryArray_of_crc crc32 describes inside damaged
    rw [parseGpt, parsed, ok_bind, refused]
    rfl

end Copies

/-- The write leaves LBA 0, the signature and the size of the primary header alone, and does not
change a part of its checksum along with something else. -/
structure SparesHeader (stray : Write UInt8) : Prop where
  signature : 520 ≤ stray.offset
  size : Apart stray.region (524, 4)
  crc : Apart stray.region (528, 4) ∨ 528 ≤ stray.offset ∧ stray.offset + stray.data.length ≤ 532

section Strays

variable {dev after state : ByteDevice} {partitions : List Partition} {diskGuid : Guid}
  {g : GptGeometry} {tails : EntryTails} {plan : GptPlan}
  (accepted : plan.Accepted dev partitions g tails) {stray : Write UInt8}
  (short : stray.data.length ≤ 4) (inside : stray.Inside dev.bytes.length)
  (damaged : state.bytes = stray.apply (plan.committed CyclicSums.ieee diskGuid accepted).bytes)

include accepted inside damaged

theorem length_damaged : state.bytes.length = dev.bytes.length := by
  have length := length_committed CyclicSums.ieee diskGuid accepted
  rw [damaged, Write.length_apply (by rw [length]; exact inside), length]

/-- What the write does not touch is as it was committed. -/
theorem slice_damaged {start len : Nat} (apart : Apart stray.region (start, len)) :
    slice state.bytes start len =
      slice (plan.committed CyclicSums.ieee diskGuid accepted).bytes start len := by
  have length := length_committed CyclicSums.ieee diskGuid accepted
  rw [damaged]
  apply slice_splice_disjoint
  · rw [length]
    exact inside
  · rcases apart with before | behind
    · exact .inr before
    · exact .inl behind

/-- A write behind the signature leaves the device a GPT one. -/
theorem hasGptSignature_damaged (behind : 520 ≤ stray.offset) : state.HasGptSignature := by
  have length := length_damaged accepted inside damaged
  have room := accepted.usableOn.room
  refine ⟨by rw [length]; omega, ?_⟩
  have signature : slice (plan.primary CyclicSums.ieee diskGuid g (dev.sizeBytes / sectorSize))
      HeaderOffsets.signature gptSignature.length = gptSignature :=
    slice_buildHeader CyclicSums.ieee ⟨HeaderOffsets.signature, gptSignature⟩
      (by simp [headerWrites])
  rw [← slice_committed_primary CyclicSums.ieee diskGuid accepted,
    slice_slice (show HeaderOffsets.signature + gptSignature.length ≤ 512 by decide)] at signature
  have apart : Apart stray.region (512, 8) := .inr behind
  exact (slice_damaged accepted inside damaged apart).trans signature

/-- A write in front of the backup copy leaves it whole. -/
theorem holdsBackup_damaged (front : stray.offset + stray.data.length ≤
    (dev.bytes.length / 512 - 1 - g.arraySectors.toNat) * 512) :
    HoldsBackup CyclicSums.ieee plan diskGuid g state := by
  have length := length_damaged accepted inside damaged
  have committed := length_committed CyclicSums.ieee diskGuid accepted
  have whole := holdsBackup_committed CyclicSums.ieee diskGuid accepted
  constructor
  · have array := whole.array
    rw [committed] at array
    rw [length, slice_damaged accepted inside damaged (.inl front)]
    exact array
  · have behind : stray.offset + stray.data.length ≤ (dev.bytes.length / 512 - 1) * 512 :=
      Nat.le_trans front (Nat.mul_le_mul_right 512 (Nat.sub_le _ _))
    have header := whole.header
    rw [committed, sizeBytes_eq committed] at header
    rw [length, slice_damaged accepted inside damaged (.inl behind), sizeBytes_eq length]
    exact header

include short

theorem burstAt_damaged : CyclicSums.BurstAt stray.offset state.bytes
    (plan.committed CyclicSums.ieee diskGuid accepted).bytes := by
  have length := length_committed CyclicSums.ieee diskGuid accepted
  rw [damaged]
  exact .of_splice short (by rw [length]; exact inside)

/-- The primary header parses to what was committed or fails its checksum. -/
theorem parseHeader_damaged (spares : SparesHeader stray) :
    parseHeader CyclicSums.ieee (slice state.bytes 512 512) = parseHeader CyclicSums.ieee
        (plan.primary CyclicSums.ieee diskGuid g (dev.sizeBytes / sectorSize)) ∨
      stray.offset < 604 ∧
        parseHeader CyclicSums.ieee (slice state.bytes 512 512) = .error .gptHeaderCrc := by
  have burst := (burstAt_damaged accepted short inside damaged).slice 512 512
  have parsed := parseHeader_primary CyclicSums.ieee diskGuid accepted
  have kept : ∀ start len, start + len ≤ 512 → Apart stray.region (512 + start, len) →
      slice (slice state.bytes 512 512) start len =
        slice (plan.primary CyclicSums.ieee diskGuid g (dev.sizeBytes / sectorSize)) start len := by
    intro start len within apart
    rw [slice_slice within, slice_damaged accepted inside damaged apart, ← slice_slice within,
      slice_committed_primary]
  rw [slice_committed_primary] at burst
  have sized := headerSize_of_parsed parsed
  have ninety_two : (u32At (plan.primary CyclicSums.ieee diskGuid g (dev.sizeBytes / sectorSize))
      HeaderOffsets.headerSize).toNat = 92 := by
    rw [← sized]
    rfl
  by_cases same : slice (slice state.bytes 512 512) 0 92 =
      slice (plan.primary CyclicSums.ieee diskGuid g (dev.sizeBytes / sectorSize)) 0 92
  · refine .inl (parseHeaderBlock_congr CyclicSums.ieee burst.length ?_ ?_)
    · rw [ninety_two]
    · rw [ninety_two]
      exact same
  · refine .inr ⟨?_, ?_⟩
    · by_contra past
      exact same (kept 0 92 (by decide) (.inr (Nat.le_of_not_lt past)))
    · apply parseHeaderBlock_damaged parsed burst
      · exact kept 0 8 (by decide) (.inr spares.signature)
      · exact kept 12 4 (by decide) spares.size
      · rcases spares.crc with apart | ⟨front, back⟩
        · exact .inl (kept 16 4 (by decide) apart)
        · refine .inr (headerForCrc_congr (Nat.le_refl 92) (kept 0 16 (by decide) (.inr front)) ?_)
          exact kept 20 72 (by decide) (.inl back)
      · exact same

/-- The primary copy reads as it was committed, or fails a checksum in front of a whole backup. -/
theorem parseGpt_damaged (spares : SparesHeader stray) :
    parseGpt CyclicSums.ieee state (slice state.bytes 512 512) =
        .ok (storedBySlot g (partitions.zip plan.slots)) ∨
      (parseGpt CyclicSums.ieee state (slice state.bytes 512 512) = .error .gptHeaderCrc ∨
        parseGpt CyclicSums.ieee state (slice state.bytes 512 512) = .error .gptEntriesCrc) ∧
        HoldsBackup CyclicSums.ieee plan diskGuid g state := by
  have length := length_damaged accepted inside damaged
  have room := accepted.usableOn.room
  have bytes := g.arrayBytes_le
  have few := short
  rcases parseHeader_damaged accepted short inside damaged spares with parsed | ⟨early, refused⟩
  · obtain ⟨whole, mixed⟩ := parseGpt_of_parsed CyclicSums.ieee accepted length parsed
    have held := slice_committed_array CyclicSums.ieee diskGuid accepted
    by_cases same : slice state.bytes (g.entryLba.toNat * 512) g.arrayBytes.toNat = plan.array
    · exact .inl (whole same)
    · refine .inr ⟨.inr (mixed ?_), holdsBackup_damaged accepted inside damaged ?_⟩
      · intro equal
        have burst := (burstAt_damaged accepted short inside damaged).slice
          (g.entryLba.toNat * 512) g.arrayBytes.toNat
        rw [held] at burst
        exact same (burst.eq_of_ieee equal)
      · have met : stray.offset < g.entryLba.toNat * 512 + g.arrayBytes.toNat := by
          by_contra past
          have apart : Apart stray.region (g.entryLba.toNat * 512, g.arrayBytes.toNat) :=
            .inr (Nat.le_of_not_lt past)
          exact same ((slice_damaged accepted inside damaged apart).trans held)
        clear damaged inside
        omega
  · refine .inr ⟨.inl ?_, holdsBackup_damaged accepted inside damaged ?_⟩
    · rw [parseGpt, refused]
      rfl
    · have shape := accepted.usableOn.wellShaped.lba_ge
      clear damaged inside
      omega

end Strays

/-- After a commit a stray write of up to four bytes past LBA 0, of which none are those by which
the primary header is found and sized, never changes which partitions a probe finds: it reads
the primary copy as it was, or names the checksum that fails and recovers them from the backup. -/
theorem probe_damaged_writeGpt {dev after state : ByteDevice} {partitions : List Partition}
    {diskGuid : Guid} {g : GptGeometry} {tails : EntryTails} {lba0 : List ReservedEntry}
    {slots : List UInt32}
    (written : (writeGptAssigningSlots CyclicSums.ieee partitions diskGuid g tails lba0).exec dev =
      (.ok slots, after)) {stray : Write UInt8} (short : stray.data.length ≤ 4)
    (inside : stray.Inside after.bytes.length) (spares : SparesHeader stray)
    (damaged : state.bytes = stray.apply after.bytes) :
    ∃ parts, probe CyclicSums.ieee after = .ok (.gpt, parts) ∧
      ((probe CyclicSums.ieee state = .ok (.gpt, parts) ∧
          ∃ source, probeWithStatus CyclicSums.ieee state = .ok (.gpt, parts, source)) ∨
        (probe CyclicSums.ieee state = .error .gptHeaderCrc ∨
            probe CyclicSums.ieee state = .error .gptEntriesCrc) ∧
          probeWithStatus CyclicSums.ieee state = .ok (.gpt, parts, .recoveredFromBackup)) := by
  obtain ⟨plan, accepted, rfl, rfl⟩ := plan_of_writeGpt CyclicSums.ieee written
  have committed := length_committed CyclicSums.ieee diskGuid accepted
  rw [committed] at inside
  have length := length_damaged accepted inside damaged
  have signature := hasGptSignature_damaged accepted inside damaged spares.signature
  refine ⟨_, (probe_committed CyclicSums.ieee diskGuid accepted).1, ?_⟩
  unfold probe probeWithStatus
  rw [probeInner_of_signature _ _ signature, probeInner_of_signature _ _ signature, probeGpt,
    probeGpt]
  rcases parseGpt_damaged accepted short inside damaged spares with parsed | ⟨refused, backup⟩
  · rw [parsed]
    exact .inl ⟨rfl, _, rfl⟩
  · have recovered := parseBackup_of_holds CyclicSums.ieee accepted length backup
    rcases refused with header | entries
    · rw [header]
      refine .inr ⟨.inl rfl, ?_⟩
      simp only [if_true]
      rw [recoverFromBackup, recovered]
    · rw [entries]
      refine .inr ⟨.inr rfl, ?_⟩
      simp only [if_true]
      rw [recoverFromBackup, recovered]

/-- The disk's GUID is overwritten in the primary header of the small disk. -/
theorem probe_damaged_smallPartition :
    ∃ after, (writeGptAssigningSlots CyclicSums.ieee [smallPartition] unusedTypeGuid
        smallGeometry (fun _ => none) []).exec eightSectors = (.ok [0], after) ∧
      ∀ state : ByteDevice, state.bytes = Write.apply ⟨568, [1, 2, 3, 4]⟩ after.bytes →
        ∃ source, probeWithStatus CyclicSums.ieee state =
          .ok (.gpt, [stored smallPartition 0], source) := by
  obtain ⟨after, written⟩ := exists_writeGpt CyclicSums.ieee unusedTypeGuid gptPlan_eightSectors
  obtain ⟨_, parts, perm, -, probed, -, -⟩ := probe_writeGpt CyclicSums.ieee written
  obtain rfl : parts = [stored smallPartition 0] := List.perm_singleton.mp perm
  obtain ⟨plan, accepted, -, same⟩ := plan_of_writeGpt CyclicSums.ieee written
  have size : eightSectors.bytes.length = 4096 := List.length_replicate
  have length : after.bytes.length = 4096 := by
    rw [same, length_committed, size]
  have inside : Write.Inside (⟨568, [1, 2, 3, 4]⟩ : Write UInt8) after.bytes.length := by
    rw [length]
    decide
  have short : (⟨568, [1, 2, 3, 4]⟩ : Write UInt8).data.length ≤ 4 := Nat.le_refl 4
  have spares : SparesHeader ⟨568, [1, 2, 3, 4]⟩ :=
    ⟨by decide, .inr (by decide), .inl (.inr (by decide))⟩
  refine ⟨after, written, fun state damaged => ?_⟩
  obtain ⟨parts, known, outcome⟩ :=
    probe_damaged_writeGpt written short inside spares damaged
  rw [probed] at known
  cases known
  rcases outcome with ⟨-, found⟩ | ⟨-, recovered⟩
  · exact found
  · exact ⟨_, recovered⟩

end DiskPartitions
