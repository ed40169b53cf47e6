import DiskPartitions.MbrEditing

/-!
# Editing a probed MBR disk

A set read off an MBR disk holds the volumes the probe reported and the entries
it left out.  Edits with the named types keep that split, so the commit's sector
has the old markers and no new ones.  The next probe finds the edited volumes,
except when the last volume went and a lone GPT marker stayed.
-/

namespace DiskPartitions

open Slices LittleEndian Refusals WriteJournal KeyOrder FallibleState

/-! ## What a probe of an MBR disk reports -/

theorem mem_reservedEntries {lba0 : List UInt8} {r : ReservedEntry}
    (member : r ∈ reservedEntries lba0) :
    ∃ i < MbrLayout.entryCount, r.entry = bytes16At lba0 (MbrLayout.entryAt i) ∧
      typeByteAt lba0 i ≠ MbrTypes.empty ∧
      ¬ (entryRole (typeByteAt lba0 i) = .volume ∧ sectorCountAt lba0 i ≠ 0) := by
  obtain ⟨i, bounded, found⟩ := List.mem_filterMap.mp member
  simp only [reservedEntryAt] at found
  split at found
  · cases found
  next nonempty =>
    split at found
    · cases found
    next notVolume =>
      cases found
      exact ⟨i, List.mem_range.mp bounded, rfl, nonempty, notVolume⟩

section Reserved

variable {lba0 : List UInt8} (width : lba0.length = 512) {r : ReservedEntry} {i : Nat}
  (bounded : i < MbrLayout.entryCount)
  (held : r.entry = bytes16At lba0 (MbrLayout.entryAt i))

include width bounded held

theorem bytes_reserved : r.entry.bytes = slice lba0 (MbrLayout.entryAt i) 16 := by
  rw [held, bytes_bytes16At]
  unfold MbrLayout.entryCount at bounded
  rw [width, MbrLayout.entryAt, MbrLayout.tableStart, MbrLayout.entrySize]
  omega

theorem typeByte_reserved : r.typeByte = typeByteAt lba0 i := by
  unfold ReservedEntry.typeByte typeByteAt byteAt
  rw [bytes_reserved width bounded held, List.getD_eq_getElem?_getD,
    List.getD_eq_getElem?_getD, getElem?_slice, if_pos (by decide)]

theorem sectorCount_reserved :
    u32At r.entry.bytes MbrLayout.sectorCount = sectorCountAt lba0 i := by
  unfold sectorCountAt u32At field
  rw [bytes_reserved width bounded held, slice_slice (by decide)]

end Reserved

/-- An entry the set keeps is not empty, and no volume. -/
theorem reserved_hidden {lba0 : List UInt8} (width : lba0.length = 512) {r : ReservedEntry}
    (member : r ∈ reservedEntries lba0) : r.typeByte ≠ MbrTypes.empty ∧ r.Hidden := by
  obtain ⟨i, bounded, held, nonempty, notVolume⟩ := mem_reservedEntries member
  have type := typeByte_reserved width bounded held
  refine ⟨by rwa [type], ?_⟩
  rw [ReservedEntry.Hidden, type, sectorCount_reserved width bounded held]
  by_cases volume : entryRole (typeByteAt lba0 i) = .volume
  · exact .inr (.inr (by simpa [volume] using notVolume))
  · exact .inr (.inl volume)

/-- A marker the set keeps was on the disk. -/
theorem hasGptMarker_of_reserved {lba0 : List UInt8} (width : lba0.length = 512)
    {r : ReservedEntry} (member : r ∈ reservedEntries lba0)
    (marker : r.typeByte = MbrTypes.gptProtective) : hasGptMarker lba0 = true := by
  obtain ⟨i, bounded, held, _⟩ := mem_reservedEntries member
  rw [typeByte_reserved width bounded held] at marker
  simp only [hasGptMarker, List.any_eq_true, List.mem_range, beq_iff_eq]
  exact ⟨i, bounded, marker⟩

/-- Everything a probe reports from an MBR is a volume. -/
theorem isMbrVolume_of_parseMbr {lba0 : List UInt8} {size : UInt64} {p : Partition}
    (member : p ∈ parseMbr lba0 size) : p.IsMbrVolume := by
  obtain ⟨parsed, volume⟩ := List.mem_filter.mp member
  obtain ⟨i, _, found⟩ := List.mem_filterMap.mp parsed
  simp only [parseMbrEntry] at found
  split at found
  · cases found
  next nonempty =>
    split at found
    · cases found
    · cases found
      refine ⟨_, rfl, nonempty, ?_⟩
      simpa [isVolume] using volume

/-- What a device must hold to be probed as an MBR. -/
structure ProbedMbr (crc32 : List UInt8 → UInt32) (dev : ByteDevice) (parts : List Partition) :
    Prop where
  large : 512 ≤ dev.bytes.length
  unsigned : ¬ dev.HasGptSignature
  signed : hasBootSignature (slice dev.bytes 0 512) = true
  sectors512 : hasGptMarker (slice dev.bytes 0 512) = true → looksLike4knGpt crc32 dev = none
  parts_eq : parts = parseMbr (slice dev.bytes 0 512) dev.sizeBytes

theorem probedMbr_of_probe {crc32 : List UInt8 → UInt32} {dev : ByteDevice}
    {parts : List Partition} (probed : probe crc32 dev = .ok (.mbr, parts)) :
    ProbedMbr crc32 dev parts := by
  obtain ⟨⟨kind, found, source⟩, inner, same⟩ : ∃ found,
      probeInner crc32 dev false = .ok found ∧ (found.1, found.2.1) = (TableKind.mbr, parts) := by
    unfold probe at probed
    cases result : probeInner crc32 dev false with
    | error error =>
        rw [result] at probed
        cases probed
    | ok found =>
        rw [result] at probed
        exact ⟨found, rfl, Except.ok.inj probed⟩
  cases same
  have large : 512 ≤ dev.bytes.length := by
    obtain ⟨lba0, read, _⟩ := bind_eq_ok.mp inner
    by_contra small
    have failed : BlockRead.read dev 0 512 =
        .error (.block (.shortRead 0 512 (dev.bytes.length - 0))) := by
      change (dev.readAt 0 512).mapError Error.block = _
      rw [ByteDevice.readAt, if_neg (by omega)]
      rfl
    rw [failed] at read
    cases read
  have unsigned : ¬ dev.HasGptSignature := by
    intro signed
    rw [probeInner_of_signature crc32 false signed] at inner
    exact probeGpt_ne_mbr crc32 false inner
  rw [probeInner_of_no_signature crc32 false large unsigned] at inner
  unfold probeMbr at inner
  split at inner
  · cases inner
  next signed =>
    split at inner
    · cases inner
    next not4kn =>
      refine ⟨large, unsigned, not_not.mp signed, fun marker => by simpa [marker] using not4kn, ?_⟩
      simp only at inner
      split at inner
      · cases inner
      · cases inner
        rfl

theorem fromProbe_mbr {crc32 : List UInt8 → UInt32} {dev : ByteDevice} {set : PartitionSet}
    (read : PartitionSet.fromProbe crc32 dev = .ok set) (mbr : set.tableKind = .mbr) :
    ProbedMbr crc32 dev set.partitions ∧
      set.reserved = reservedEntries (slice dev.bytes 0 512) := by
  unfold PartitionSet.fromProbe at read
  obtain ⟨⟨kind, parts⟩, probed, read⟩ := bind_eq_ok.mp read
  obtain ⟨sector, sectorRead, read⟩ := bind_eq_ok.mp read
  cases kind with
  | gpt =>
      obtain ⟨_, _, read⟩ := bind_eq_ok.mp read
      obtain ⟨_, _, read⟩ := bind_eq_ok.mp read
      obtain ⟨_, _, read⟩ := bind_eq_ok.mp read
      cases read
      cases mbr
  | mbr =>
      cases read
      have found := probedMbr_of_probe probed
      rw [read_of_le (by have := found.large; omega)] at sectorRead
      cases sectorRead
      exact ⟨found, rfl⟩

/-! ## Edits with the named types -/

/-- The call adds no partition of a custom type. -/
def Edit.NamedType : Edit → Prop
  | .add _ _ typeId _ _ =>
      (∀ guid, typeId ≠ .gptCustom guid) ∧ ∀ typeByte, typeId ≠ .mbrCustom typeByte
  | _ => True

/-- The named types with an MBR type byte are volumes. -/
theorem isVolumeType_of_named {typeId : PartitionTypeId} {typeByte : UInt8}
    (notCustom : ∀ custom, typeId ≠ .mbrCustom custom)
    (encoded : typeId.toMbrByte = .ok typeByte) : IsVolumeType typeByte := by
  cases typeId with
  | mbrCustom custom => exact absurd rfl (notCustom custom)
  | gptCustom guid => cases encoded
  | appleApfs => cases encoded
  | efiSystem => cases encoded; decide
  | microsoftBasicData => cases encoded; decide
  | linuxFilesystem => cases encoded; decide
  | linuxSwap => cases encoded; decide
  | appleHfsPlus => cases encoded; decide

/-- An MBR set of volumes. -/
structure PartitionSet.OfVolumes (set : PartitionSet) : Prop where
  mbr : set.tableKind = .mbr
  volumes : ∀ p ∈ set.partitions, p.IsMbrVolume

theorem ofVolumes_apply {set : PartitionSet} (held : set.OfVolumes) {edit : Edit}
    (named : edit.NamedType) : (edit.apply set).OfVolumes := by
  refine ⟨(Edit.sameTable_apply set edit).tableKind.trans held.mbr,
    Edit.forall_kind_apply (P := fun kind => ∃ fields ∈ kind.mbrFields, IsVolumeType fields.1)
      held.volumes ?_⟩
  rintro startHint length typeId label drawn kind rfl made
  unfold PartitionSet.newKind at made
  rw [held.mbr] at made
  obtain ⟨typeByte, encoded, made⟩ := bind_eq_ok.mp made
  cases made
  exact ⟨(typeByte, false), rfl, isVolumeType_of_named named.2 encoded⟩

/-! ## The probe after the commit -/

/-- Nothing is left of the table but one GPT marker. -/
def PartitionSet.LoneMarker (set : PartitionSet) : Prop :=
  set.partitions = [] ∧ ∃ r, set.reserved = [r] ∧ r.typeByte = MbrTypes.gptProtective

theorem seat_types {partitions : List Partition} (volumes : ∀ p ∈ partitions, p.IsMbrVolume)
    (slots : List UInt32) :
    ∀ seat ∈ partitions.zip slots,
      IsVolumeType ((seat.1.kind.mbrFields.map Prod.fst).getD 0) := fun _ member =>
  seat_type_ne (fun seat present => volumes seat.1 (List.of_mem_zip present).1) member

section Probing

variable (crc32 : List UInt8 → UInt32) {set : PartitionSet} {dev : ByteDevice} {plan : MbrPlan}
  (accepted : plan.Accepted dev set.partitions set.reserved)
  (volumes : ∀ p ∈ set.partitions, p.IsMbrVolume)

include accepted volumes

/-- A marker in the committed sector is one of the reserved entries. -/
theorem reserved_of_marker (marker : hasGptMarker plan.sector = true) :
    ∃ r ∈ set.reserved, r.typeByte = MbrTypes.gptProtective := by
  rw [accepted.sector_eq, hasGptMarker_built (length_boot accepted) accepted.seating] at marker
  obtain ⟨occupant, member, isMarker⟩ := marker
  rcases List.mem_append.mp member with seated | kept
  · obtain ⟨seat, present, rfl⟩ := List.mem_map.mp seated
    exact absurd isMarker (seat_types volumes plan.slots seat present).ne_marker
  · obtain ⟨r, present, rfl⟩ := List.mem_map.mp kept
    exact ⟨r, present, isMarker⟩

/-- The committed sector is a protective MBR when a marker is all that is left. -/
theorem isProtective_sector (used : ∀ r ∈ set.reserved, r.typeByte ≠ MbrTypes.empty) :
    isProtective plan.sector = true ↔ set.LoneMarker := by
  have types := seat_types volumes plan.slots
  have nonempty : ∀ occupant ∈ occupantTypes set.reserved (set.partitions.zip plan.slots),
      occupant.2 ≠ MbrTypes.empty := by
    intro occupant member
    rcases List.mem_append.mp member with seated | kept
    · obtain ⟨seat, present, rfl⟩ := List.mem_map.mp seated
      exact (types seat present).1
    · obtain ⟨r, present, rfl⟩ := List.mem_map.mp kept
      exact used r present
  rw [accepted.sector_eq, isProtective_built (length_boot accepted) accepted.seating nonempty,
    occupantTypes, List.map_append, List.map_map, List.map_map]
  cases seats : set.partitions.zip plan.slots with
  | nil =>
      have empty : set.partitions = [] := by
        have lengths := accepted.length_slots
        rcases List.zip_eq_nil_iff.mp seats with first | second
        · exact first
        · rw [second] at lengths
          exact List.length_eq_zero_iff.mp lengths.symm
      rw [PartitionSet.LoneMarker, List.map_nil, List.nil_append, List.map_eq_singleton_iff]
      simp [empty]
  | cons seat rest =>
      have marker := (types seat (by rw [seats]; simp)).ne_marker
      have some : set.partitions ≠ [] := by
        intro empty
        rw [empty] at seats
        cases seats
      constructor
      · intro single
        rw [List.map_cons, List.cons_append, List.cons.injEq] at single
        exact absurd single.1 marker
      · intro lone
        exact absurd lone.1 some

end Probing

/-- A device whose table is a lone marker is refused as a broken GPT. -/
theorem probe_of_protective (crc32 : List UInt8 → UInt32) {dev : ByteDevice}
    {partitions : List Partition} {reserved : List ReservedEntry} {plan : MbrPlan}
    (accepted : plan.Accepted dev partitions reserved) (unsigned : ¬ dev.HasGptSignature)
    (sectors512 : hasGptMarker plan.sector = true → looksLike4knGpt crc32 dev = none)
    (protective : isProtective plan.sector = true) :
    probe crc32 (plan.committed accepted) =
      .error (.gptCorrupt "protective MBR present but no GPT signature") := by
  rw [probe, probeInner_mbrCommitted accepted crc32 false unsigned, probeMbr,
    if_neg (by simp [hasBootSignature_sector accepted]),
    not4kn_mbrCommitted accepted crc32 sectors512]
  simp only [protective, if_true, Bool.false_eq_true, if_false]
  rfl

/-- After edits with the named types, a committed set reads back exactly when it is
more than a lone GPT marker. -/
theorem edited_mbr_reads_back_iff (crc32 : List UInt8 → UInt32) {dev after : ByteDevice}
    {set : PartitionSet} {edits : List Edit}
    (read : PartitionSet.fromProbe crc32 dev = .ok set) (mbr : set.tableKind = .mbr)
    (named : ∀ edit ∈ edits, edit.NamedType)
    (committed : ((Edit.applyAll edits set).commit crc32).exec dev = (.ok (), after)) :
    (∃ parts, ReadsBackMbr crc32 (Edit.applyAll edits set) dev after parts) ↔
      ¬ (Edit.applyAll edits set).LoneMarker := by
  obtain ⟨found, kept⟩ := fromProbe_mbr read mbr
  have width : (slice dev.bytes 0 512).length = 512 :=
    length_slice (by have := found.large; omega)
  have ofVolumes : (Edit.applyAll edits set).OfVolumes := by
    refine Edit.applyAll_induction (P := PartitionSet.OfVolumes) (fun edit member other held =>
      ofVolumes_apply held (named edit member)) ⟨mbr, fun p member => ?_⟩
    rw [found.parts_eq] at member
    exact isMbrVolume_of_parseMbr member
  have reserved : (Edit.applyAll edits set).reserved =
      reservedEntries (slice dev.bytes 0 512) :=
    (Edit.sameTable_applyAll set edits).reserved.trans kept
  have hidden : ∀ r ∈ (Edit.applyAll edits set).reserved,
      r.typeByte ≠ MbrTypes.empty ∧ r.Hidden := by
    rw [reserved]
    exact fun r member => reserved_hidden width member
  obtain ⟨plan, accepted, flushed, rfl⟩ := plan_of_commitMbr crc32 ofVolumes.mbr committed
  have lone := isProtective_sector accepted ofVolumes.volumes fun r member => (hidden r member).1
  have sectors512 : hasGptMarker plan.sector = true → looksLike4knGpt crc32 dev = none := by
    intro marker
    obtain ⟨r, member, isMarker⟩ := reserved_of_marker accepted ofVolumes.volumes marker
    rw [reserved] at member
    exact found.sectors512 (hasGptMarker_of_reserved width member isMarker)
  rw [← lone, Bool.not_eq_true]
  constructor
  · rintro ⟨parts, probed, _⟩
    by_contra protective
    rw [Bool.not_eq_false] at protective
    rw [probe_of_protective crc32 accepted found.unsigned sectors512 protective] at probed
    cases probed
  · intro table
    refine ⟨_, readsBackMbr_of_probe crc32 accepted flushed ofVolumes.volumes ?_⟩
    rw [probeInner_mbrCommitted accepted crc32 false found.unsigned]
    exact probeMbr_mbrCommitted accepted crc32 false (fun r member => (hidden r member).2)
      sectors512 table

/-! ## A small hybrid disk -/

/-- Three sectors: a table of two volumes of one sector and a GPT marker. -/
def hybridDisk : ByteDevice where
  bytes := List.replicate 446 0 ++
    [0, 0, 0, 0, 0x83, 0, 0, 0, 1, 0, 0, 0, 1, 0, 0, 0,
      0, 0, 2, 0, 0xEE, 0, 0, 0, 1, 0, 0, 0, 1, 0, 0, 0,
      0, 0, 0, 0, 0x82, 0, 0, 0, 2, 0, 0, 0, 1, 0, 0, 0] ++
    List.replicate 16 0 ++ [0x55, 0xAA] ++ List.replicate 1024 0
  writable := true
  flushed := .ok ()
  journal := []
  length_lt := by
    simp only [List.length_append, List.length_replicate, List.length_cons, List.length_nil]
    omega

/-- The set of the hybrid disk. -/
def hybridSet : PartitionSet :=
  { PartitionSet.emptyMbr 1536 with
    partitions := parseMbr (slice hybridDisk.bytes 0 512) 1536
    reserved := reservedEntries (slice hybridDisk.bytes 0 512) }

theorem fromProbe_hybridDisk :
    PartitionSet.fromProbe CyclicSums.ieee hybridDisk = .ok hybridSet := by
  have probed : probe CyclicSums.ieee hybridDisk =
      .ok (.mbr, parseMbr (slice hybridDisk.bytes 0 512) 1536) := by decide +kernel
  have read : BlockRead.read hybridDisk 0 512 = .ok (slice hybridDisk.bytes 0 512) :=
    read_of_le (by decide +kernel)
  have size : hybridDisk.toBlockRead.sizeBytes = 1536 := by decide +kernel
  unfold PartitionSet.fromProbe
  rw [probed, ok_bind]
  simp only [read, ok_bind, size]
  rfl

/-- Both volumes removed, the commit succeeds and leaves a disk no probe reads. -/
theorem emptied_hybridDisk_unreadable :
    ∃ after, ((Edit.applyAll [.remove (.index 0), .remove (.index 0)] hybridSet).commit
        CyclicSums.ieee).exec hybridDisk = (.ok (), after) ∧
      PartitionSet.fromProbe CyclicSums.ieee hybridDisk = .ok hybridSet ∧
      hybridSet.tableKind = .mbr ∧
      probe CyclicSums.ieee after =
        .error (.gptCorrupt "protective MBR present but no GPT signature") := by
  have edited : (Edit.applyAll [.remove (.index 0), .remove (.index 0)] hybridSet).partitions =
      [] := by decide +kernel
  have planned : (mbrPlan hybridDisk [] hybridSet.reserved).map
      (fun plan => isProtective plan.sector) = .ok true := by decide +kernel
  have unsigned : ¬ hybridDisk.HasGptSignature := by decide +kernel
  have sectors512 : looksLike4knGpt CyclicSums.ieee hybridDisk = none := by decide +kernel
  cases made : mbrPlan hybridDisk [] hybridSet.reserved with
  | error error =>
      rw [made] at planned
      cases planned
  | ok plan =>
      rw [made] at planned
      have protective : isProtective plan.sector = true := Except.ok.inj planned
      have same := Edit.sameTable_applyAll hybridSet [.remove (.index 0), .remove (.index 0)]
      rw [← edited, ← same.reserved] at made
      exact ⟨_, commitMbr_of_plan CyclicSums.ieee same.tableKind made rfl, fromProbe_hybridDisk, rfl,
        probe_of_protective CyclicSums.ieee (mbrPlan_eq_ok made) unsigned (fun _ => sectors512)
          protective⟩

/-- One volume removed, the other and the marker read back. -/
theorem edited_hybridDisk_reads_back :
    ∃ after, ((Edit.applyAll [.remove (.index 0)] hybridSet).commit
        CyclicSums.ieee).exec hybridDisk = (.ok (), after) ∧
      ∃ parts, ReadsBackMbr CyclicSums.ieee (Edit.applyAll [.remove (.index 0)] hybridSet)
        hybridDisk after parts := by
  have planned : (mbrPlan hybridDisk (Edit.applyAll [.remove (.index 0)] hybridSet).partitions
      hybridSet.reserved).map MbrPlan.slots = .ok [2] := by decide +kernel
  have volume : ¬ (Edit.applyAll [.remove (.index 0)] hybridSet).partitions = [] := by
    decide +kernel
  cases made : mbrPlan hybridDisk (Edit.applyAll [.remove (.index 0)] hybridSet).partitions
      hybridSet.reserved with
  | error error =>
      rw [made] at planned
      cases planned
  | ok plan =>
      have same := Edit.sameTable_applyAll hybridSet [.remove (.index 0)]
      rw [← same.reserved] at made
      have committed := commitMbr_of_plan CyclicSums.ieee same.tableKind made rfl
      exact ⟨_, committed, (edited_mbr_reads_back_iff CyclicSums.ieee fromProbe_hybridDisk rfl
        (by simp [Edit.NamedType]) committed).mpr fun lone => volume lone.1⟩

end DiskPartitions
