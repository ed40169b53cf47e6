import DiskPartitions.EditedMbr
import DiskPartitions.MbrRoundTrip
import DiskPartitions.SafeProbes

/-!
# What a probe reports is exact

Whatever bytes a device holds and whatever size it states, the partitions a probe
lists are the entries of the table it read: in slot order, in whole sectors, counted
without a wrap, clipped to the device over the integers, and flagged for exactly the
rules their LBA ranges break.
-/

namespace DiskPartitions

open Slices LittleEndian CheckedWords Refusals TrappingWords

/-! ## What is reported -/

/-- A partition in whole sectors, as much of it available as the device has. -/
structure Partition.ListedOn (deviceSize : UInt64) (p : Partition) : Prop where
  start_aligned : p.start.toNat % 512 = 0
  length_aligned : p.length.toNat % 512 = 0
  length_pos : 0 < p.length.toNat
  available : (p.availableLength.toNat : Int) =
    if deviceSize = 0 then (p.length.toNat : Int)
    else min (p.length.toNat : Int) (max ((deviceSize.toNat : Int) - p.start.toNat) 0)

/-- A partition is entry `i` of an MBR. -/
structure MbrEntryAt (lba0 : List UInt8) (i : Nat) (p : Partition) : Prop where
  slot : p.slot = some (UInt32.ofNat i)
  start : p.start.toNat =
    (u32At lba0 (MbrLayout.entryAt i + MbrLayout.startLba)).toNat * 512
  length : p.length.toNat =
    (u32At lba0 (MbrLayout.entryAt i + MbrLayout.sectorCount)).toNat * 512
  issues : p.issues = 0

/-- A partition is entry `i` of an array of GPT entries. -/
structure GptEntryAt (size : Nat) (array : List UInt8) (i : Nat) (p : Partition) : Prop where
  slot : p.slot = some (UInt32.ofNat i)
  start : p.start.toNat = (storedSpan size array i).1.toNat * 512
  length : p.length.toNat + (storedSpan size array i).1.toNat * 512 =
    ((storedSpan size array i).2.toNat + 1) * 512
  span : p.lbaSpan = storedSpan size array i

/-- The three flags of a GPT entry, one for each rule. -/
structure FlagsAt (header : Header) (parts : List Partition) (k : Nat) (p : Partition) :
    Prop where
  before : p.issues &&& EntryIssue.beforeFirstUsable ≠ 0 ↔
    p.lbaSpan.1 < header.firstUsableLba
  past : p.issues &&& EntryIssue.pastLastUsable ≠ 0 ↔ header.lastUsableLba < p.lbaSpan.2
  overlaps : p.issues &&& EntryIssue.overlapsAnother ≠ 0 ↔
    ∃ j q, j ≠ k ∧ parts[j]? = some q ∧ SharesSector p.lbaSpan q.lbaSpan

/-- The table that was read from the header sector at `lba`. -/
structure ReadTable (crc32 : List UInt8 → UInt32) (dev : BlockRead) (lba : UInt64)
    (header : Header) (array : List UInt8) : Prop where
  header_read : ∃ sector, dev.readAt (lba.toNat * 512) 512 = .ok sector ∧
    parseHeader crc32 sector = .ok header
  myLba : header.myLba = lba
  array_read : dev.readAt (header.partitionEntryLba.toNat * 512)
    (header.numPartitionEntries.toNat * header.partitionEntrySize.toNat) = .ok array

/-- The partitions listed for a GPT are the entries of the primary's array, or of the
backup's when that may be consulted. -/
structure ReportsGpt (crc32 : List UInt8 → UInt32) (dev : BlockRead) (consultBackup : Bool)
    (parts : List Partition) (lba : UInt64) (header : Header) (array : List UInt8) : Prop where
  place : lba = 1 ∨ consultBackup = true ∧ lba = dev.sizeBytes / sectorSize - 1
  table : ReadTable crc32 dev lba header array
  entries : ∀ p ∈ parts, ∃ i < header.numPartitionEntries.toNat,
    GptEntryAt header.partitionEntrySize.toNat array i p
  flags : ∀ (k : Nat) (p : Partition), parts[k]? = some p → FlagsAt header parts k p

/-- The partitions listed for an MBR are entries of LBA 0. -/
structure ReportsMbr (dev : BlockRead) (parts : List Partition) (lba0 : List UInt8) :
    Prop where
  read : dev.readAt 0 512 = .ok lba0
  entries : ∀ p ∈ parts, ∃ i < MbrLayout.entryCount, MbrEntryAt lba0 i p

/-- What a successful probe says is what the device holds. -/
structure ReportsExactly (crc32 : List UInt8 → UInt32) (dev : BlockRead)
    (consultBackup : Bool) (kind : TableKind) (parts : List Partition) : Prop where
  ordered : parts.Pairwise Partition.SlotBefore
  listed : ∀ p ∈ parts, p.ListedOn dev.sizeBytes
  source : match kind with
    | .gpt => ∃ lba header array, ReportsGpt crc32 dev consultBackup parts lba header array
    | .mbr => ∃ lba0, ReportsMbr dev parts lba0

/-! ## The lists of the two tables -/

/-- Clipping to the device is subtraction cut off at zero. -/
theorem toNat_availableOnDevice (start length deviceSize : UInt64) :
    ((availableOnDevice start length deviceSize).toNat : Int) =
      if deviceSize = 0 then (length.toNat : Int)
      else min (length.toNat : Int) (max ((deviceSize.toNat : Int) - start.toNat) 0) := by
  unfold availableOnDevice
  by_cases unstated : deviceSize = 0
  · rw [if_pos unstated, if_pos unstated]
  · have rest := toNat_saturatingSub deviceSize start
    rw [if_neg unstated, if_neg unstated]
    by_cases shorter : length ≤ saturatingSub deviceSize start
    · rw [show min length (saturatingSub deviceSize start) = length from if_pos shorter]
      rw [UInt64.le_iff_toNat_le, rest] at shorter
      omega
    · rw [show min length (saturatingSub deviceSize start) = saturatingSub deviceSize start
        from if_neg shorter, rest]
      rw [UInt64.le_iff_toNat_le, rest] at shorter
      omega

/-- The range flags, read out of the issues of a list. -/
theorem IssuesAt.flags {header : Header} {parts : List Partition} {k : Nat} {p : Partition}
    (issues : IssuesAt (header.firstUsableLba, header.lastUsableLba) parts k p)
    (ordered : p.lbaSpan.1 ≤ p.lbaSpan.2) : FlagsAt header parts k p := by
  have masked : ∀ bit, ~~~EntryIssue.overlapsAnother &&& bit = bit →
      p.issues &&& bit =
        rangeIssues p.lbaSpan.1 p.lbaSpan.2 header.firstUsableLba header.lastUsableLba &&&
          bit := by
    intro bit apart
    rw [← issues.range, UInt32.and_assoc, apart]
  refine ⟨?_, ?_, issues.overlap⟩
  · rw [masked _ (by decide), rangeIssues_before]
  · rw [masked _ (by decide), rangeIssues_past]
    simp only [UInt64.lt_iff_toNat_lt, UInt64.le_iff_toNat_le] at *
    omega

section Gpt

variable {crc32 : List UInt8 → UInt32} {dev : BlockRead} {header : Header}
  {parts : List Partition} {array : List UInt8}

/-- A parsed array is reported exactly. -/
theorem reports_of_parseEntryArray
    (parsed : parseEntryArray crc32 dev header = .ok (parts, array)) :
    (∀ p ∈ parts, p.ListedOn dev.sizeBytes) ∧
      (∀ p ∈ parts, ∃ i < header.numPartitionEntries.toNat,
        GptEntryAt header.partitionEntrySize.toNat array i p) ∧
      ∀ (k : Nat) (p : Partition), parts[k]? = some p → FlagsAt header parts k p := by
  obtain ⟨issues, entries⟩ := entries_of_parseEntryArray parsed
  have each : ∀ p ∈ parts, p.ListedOn dev.sizeBytes ∧ p.lbaSpan.1 ≤ p.lbaSpan.2 ∧
      ∃ i < header.numPartitionEntries.toNat,
        GptEntryAt header.partitionEntrySize.toNat array i p := by
    intro p member
    obtain ⟨i, place, entry, read, same⟩ := entries p member
    have start : p.start = entry.1.start := by rw [same]
    have length : p.length = entry.1.length := by rw [same]
    have span : p.lbaSpan = entry.2 := by
      rw [← read.lbaSpan_eq, Partition.lbaSpan, Partition.lbaSpan, start, length]
    have ordered := UInt64.le_iff_toNat_le.mp read.ordered
    have own := read.span
    have startBytes := read.start
    have lengthBytes := read.length
    rw [← start] at startBytes
    rw [← length] at lengthBytes
    refine ⟨⟨by omega, by omega, by omega, ?_⟩, ?_, i, place, ?_, ?_, ?_, ?_⟩
    · rw [same]
      change ((entry.1.availableLength.toNat : Nat) : Int) = _
      rw [read.available]
      exact toNat_availableOnDevice _ _ _
    · rw [span]
      exact read.ordered
    · rw [same]
      exact read.slot
    · rw [← own]
      exact startBytes
    · rw [← own]
      omega
    · rw [span, own]
  refine ⟨fun p member => (each p member).1, fun p member => (each p member).2.2, ?_⟩
  intro k p found
  exact (issues k p found).flags (each p (List.mem_of_getElem? found)).2.1

end Gpt

section Mbr

variable {dev : BlockRead} {lba0 : List UInt8}

/-- The volumes of a sector are listed in slot order. -/
theorem slotOrder_parseMbr (lba0 : List UInt8) (size : UInt64) :
    (parseMbr lba0 size).Pairwise Partition.SlotBefore := by
  unfold parseMbr parseAllEntries
  apply List.Pairwise.filter
  rw [List.pairwise_filterMap]
  apply List.pairwise_lt_range.imp_of_mem
  intro i j first second before p here q there
  have small := List.mem_range.mp second
  refine ⟨_, _, slot_of_parseMbrEntry here, slot_of_parseMbrEntry there, ?_⟩
  rw [UInt32.lt_iff_toNat_lt, toNat_slot (by omega), toNat_slot small]
  exact before

theorem reportsExactly_mbr {crc32 : List UInt8 → UInt32} {consultBackup : Bool}
    (read : dev.readAt 0 512 = .ok lba0) :
    ReportsExactly crc32 dev consultBackup .mbr (parseMbr lba0 dev.sizeBytes) := by
  have each : ∀ p ∈ parseMbr lba0 dev.sizeBytes, p.ListedOn dev.sizeBytes ∧
      ∃ i < MbrLayout.entryCount, MbrEntryAt lba0 i p := by
    intro p member
    obtain ⟨i, place, holds, rfl⟩ := mem_parseMbr.mp member
    have start := toNat_mbrBytes (u32At lba0 (MbrLayout.entryAt i + MbrLayout.startLba))
    have length := toNat_mbrBytes (sectorCountAt lba0 i)
    have positive : 0 < (sectorCountAt lba0 i).toNat := by
      apply Nat.pos_of_ne_zero
      intro zero
      exact holds.2 (UInt32.toNat_inj.mp zero)
    refine ⟨⟨?_, ?_, ?_, toNat_availableOnDevice _ _ _⟩, i, place, rfl, start, length, rfl⟩
    · rw [slotVolume, start]
      omega
    · rw [slotVolume, length]
      omega
    · rw [slotVolume, length]
      omega
  exact {
    ordered := slotOrder_parseMbr lba0 dev.sizeBytes
    listed := fun p member => (each p member).1
    source := ⟨lba0, read, fun p member => (each p member).2⟩ }

end Mbr

/-! ## Every probe -/

section Probes

variable {crc32 : List UInt8 → UInt32} {dev : BlockRead} {consultBackup : Bool}
  {kind : TableKind} {parts : List Partition} {source : TableSource}

theorem parseBackup_of_recoverFromBackup {primary : Error}
    (recovered : recoverFromBackup crc32 dev primary = .ok (kind, parts, source)) :
    kind = .gpt ∧ parseBackup crc32 dev = .ok parts := by
  unfold recoverFromBackup at recovered
  split at recovered
  next found =>
    cases recovered
    exact ⟨rfl, found⟩
  · cases recovered

/-- Where the partitions of a successful probe come from. -/
theorem probeInner_cases (probed : probeInner crc32 dev consultBackup =
    .ok (kind, parts, source)) :
    (kind = .gpt ∧ ∃ lba1, dev.readAt 512 512 = .ok lba1 ∧
      parseGpt crc32 dev lba1 = .ok parts) ∨
    (kind = .gpt ∧ consultBackup = true ∧ parseBackup crc32 dev = .ok parts) ∨
    (kind = .mbr ∧ ∃ lba0, dev.readAt 0 512 = .ok lba0 ∧
      parts = parseMbr lba0 dev.sizeBytes) := by
  obtain ⟨lba0, first, probed⟩ := bind_eq_ok.mp probed
  obtain ⟨lba1, second, probed⟩ := bind_eq_ok.mp probed
  split at probed
  next signed =>
    have read := lba1_of_signed second signed
    unfold probeGpt at probed
    split at probed
    next found =>
      -- the comparison with the backup decides the source only
      split at probed
      · cases probed
        exact .inl ⟨rfl, lba1, read, found⟩
      · cases probed
        exact .inl ⟨rfl, lba1, read, found⟩
    · split at probed
      next consulted =>
        obtain ⟨gpt, recovered⟩ := parseBackup_of_recoverFromBackup probed
        exact .inr (.inl ⟨gpt, consulted, recovered⟩)
      · cases probed
  · unfold probeMbr at probed
    split at probed
    · cases probed
    · split at probed
      · cases probed
      · dsimp only at probed
        split at probed
        · split at probed
          next consulted =>
            obtain ⟨gpt, recovered⟩ := parseBackup_of_recoverFromBackup probed
            exact .inr (.inl ⟨gpt, consulted, recovered⟩)
          · cases probed
        · cases probed
          exact .inr (.inr ⟨rfl, lba0, read_eq_ok.mp first, rfl⟩)

/-- A parsed array of a header that was found at its own LBA. -/
theorem reportsExactly_gpt {lba : UInt64} {sector : List UInt8} {header : Header}
    {array : List UInt8} (place : lba = 1 ∨ consultBackup = true ∧
      lba = dev.sizeBytes / sectorSize - 1)
    (read : dev.readAt (lba.toNat * 512) 512 = .ok sector)
    (parsed : parseHeader crc32 sector = .ok header) (own : header.myLba = lba)
    (entries : parseEntryArray crc32 dev header = .ok (parts, array)) :
    ReportsExactly crc32 dev consultBackup .gpt parts := by
  obtain ⟨listed, places, flags⟩ := reports_of_parseEntryArray entries
  have table : ReadTable crc32 dev lba header array :=
    ⟨⟨sector, read, parsed⟩, own, array_read_of_parseEntryArray entries⟩
  exact {
    ordered := slotOrder_of_parseEntryArray entries
    listed
    source := ⟨lba, header, array, place, table, places, flags⟩ }

theorem reportsExactly_of_parseGpt {lba1 : List UInt8} (read : dev.readAt 512 512 = .ok lba1)
    (parsed : parseGpt crc32 dev lba1 = .ok parts) :
    ReportsExactly crc32 dev consultBackup .gpt parts := by
  obtain ⟨header, decoded, parsed⟩ := bind_eq_ok.mp parsed
  obtain ⟨own, parsed⟩ := refuseIf_bind_eq_ok.mp parsed
  obtain ⟨⟨found, array⟩, entries, parsed⟩ := bind_eq_ok.mp parsed
  cases parsed
  exact reportsExactly_gpt (.inl rfl) read decoded (not_not.mp own) entries

theorem reportsExactly_of_parseBackup (consulted : consultBackup = true)
    (parsed : parseBackup crc32 dev = .ok parts) :
    ReportsExactly crc32 dev consultBackup .gpt parts := by
  obtain ⟨large, parsed⟩ := refuseIf_bind_eq_ok.mp parsed
  obtain ⟨sector, read, parsed⟩ := bind_eq_ok.mp parsed
  obtain ⟨header, decoded, parsed⟩ := bind_eq_ok.mp parsed
  obtain ⟨own, parsed⟩ := refuseIf_bind_eq_ok.mp parsed
  obtain ⟨⟨found, array⟩, entries, parsed⟩ := bind_eq_ok.mp parsed
  cases parsed
  have bounded := dev.sizeBytes.toNat_lt
  have place : (dev.sizeBytes / sectorSize - 1).toNat < 2 ^ 55 := by
    rw [(toNat_backupLba large).1]
    omega
  rw [toNat_lba_mul place] at read
  exact reportsExactly_gpt (.inr ⟨consulted, rfl⟩) (read_eq_ok.mp read) decoded
    (not_not.mp own) entries

theorem reportsExactly_of_probeInner
    (probed : probeInner crc32 dev consultBackup = .ok (kind, parts, source)) :
    ReportsExactly crc32 dev consultBackup kind parts := by
  rcases probeInner_cases probed with ⟨rfl, lba1, read, parsed⟩ | ⟨rfl, consulted, parsed⟩ |
    ⟨rfl, lba0, read, rfl⟩
  · exact reportsExactly_of_parseGpt read parsed
  · exact reportsExactly_of_parseBackup consulted parsed
  · exact reportsExactly_mbr read

end Probes

/-- For every device, neither probe traps, and what either reports when it succeeds is
what the device holds: partitions in slot order, in whole sectors, with the LBA fields
of their entries times 512, clipped to the stated size over the integers, and flagged
for exactly the rules their LBA ranges break. -/
theorem probe_exact (crc32 : List UInt8 → UInt32) (dev : BlockRead) :
    probeTrapping crc32 dev = exact (probe crc32 dev) ∧
      probeWithStatusTrapping crc32 dev = exact (probeWithStatus crc32 dev) ∧
      (∀ kind parts, probe crc32 dev = .ok (kind, parts) →
        ReportsExactly crc32 dev false kind parts) ∧
      ∀ kind parts source, probeWithStatus crc32 dev = .ok (kind, parts, source) →
        ReportsExactly crc32 dev true kind parts := by
  refine ⟨probeTrapping_eq crc32 dev, probeInnerTrapping_eq crc32 dev true, ?_, ?_⟩
  · intro kind parts probed
    obtain ⟨source, inner⟩ := probe_eq_ok.mp probed
    exact reportsExactly_of_probeInner inner
  · intro kind parts source probed
    exact reportsExactly_of_probeInner probed

/-- The two volumes of the hybrid disk. -/
theorem probe_exact_hybridDisk :
    ∃ parts, probe CyclicSums.ieee hybridDisk = .ok (.mbr, parts) ∧ parts.length = 2 ∧
      ReportsExactly CyclicSums.ieee hybridDisk false .mbr parts := by
  have probed : probe CyclicSums.ieee hybridDisk =
      .ok (.mbr, parseMbr (slice hybridDisk.bytes 0 512) 1536) := by decide +kernel
  have two : (parseMbr (slice hybridDisk.bytes 0 512) 1536).length = 2 := by decide +kernel
  exact ⟨_, probed, two, (probe_exact CyclicSums.ieee hybridDisk).2.2.1 _ _ probed⟩

end DiskPartitions
