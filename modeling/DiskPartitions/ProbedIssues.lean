import DiskPartitions.BackupVerdicts
import DiskPartitions.CommittedSets
import DiskPartitions.EditedIssues

/-!
# The issues of a probed set under edit

A GPT read off a device starts with the issues its reader gave it.  An entry without a
span that shares a sector with another is the one thing that sets the two apart: with
all the others removed it still carries the overlap bit.
-/

namespace DiskPartitions

open Slices CheckedWords Refusals

/-! ## A probed set -/

/-- A table keeps to the range its header declares. -/
theorem usableRange_fromHeader {header : Header} {total : UInt64} {usable : UInt64 × UInt64}
    (accepted : (GptGeometry.fromHeader header).usableRange total = .ok usable) :
    usable = (header.firstUsableLba, header.lastUsableLba) := by
  obtain ⟨_, _, accepted⟩ := bind_eq_ok.mp accepted
  obtain ⟨_, accepted⟩ := refuseIf_bind_eq_ok.mp accepted
  change (refuseIf _ _ >>= _) = _ at accepted
  obtain ⟨_, accepted⟩ := refuseIf_bind_eq_ok.mp accepted
  obtain ⟨_, accepted⟩ := refuseIf_bind_eq_ok.mp accepted
  obtain ⟨_, accepted⟩ := refuseIf_bind_eq_ok.mp accepted
  cases accepted
  rfl

section Probed

variable {crc32 : List UInt8 → UInt32} {dev : BlockRead} {set : PartitionSet}
  {lba0 lba1 array : List UInt8} {header : Header}
  (read : set.ReadGpt crc32 dev lba0 lba1 header array)

include read

theorem whole_of_readGpt : ∀ p ∈ set.partitions, p.Whole := by
  intro p member
  obtain ⟨i, _, entry, own, same⟩ := (entries_of_parseEntryArray read.entries).2 p member
  have start : p.start = entry.1.start := by rw [same]
  have length : p.length = entry.1.length := by rw [same]
  have startBytes := own.start
  have lengthBytes := own.length
  rw [← start] at startBytes
  rw [← length] at lengthBytes
  exact ⟨by omega, by omega, by omega⟩

/-- A probed set whose entries without a span meet nobody reports its issues. -/
theorem exactIssues_of_readGpt (apart : SpanlessApart set.partitions) :
    ExactIssues (header.firstUsableLba, header.lastUsableLba) set where
  gpt := read.tableKind
  usableRange := by
    simp only [PartitionSet.usableRange, read.tableKind, read.geometry]
    split
    next accepted => exact .inl (usableRange_fromHeader accepted)
    next => exact .inr rfl
  whole := whole_of_readGpt read
  reports := (entries_of_parseEntryArray read.entries).1
  apart := apart

end Probed

/-! ## An entry without a span -/

/-- Removing all the others from a list leaves an entry without a span as it was, with
an overlap bit that nobody is left to justify. -/
theorem exists_flawed {usable : UInt64 × UInt64} {p : Partition} (spanless : p.Spanless)
    (marked : p.issues &&& EntryIssue.overlapsAnother ≠ 0) {set : PartitionSet} {i : Nat}
    (gpt : set.tableKind = .gpt) (whole : ∀ q ∈ set.partitions, q.Whole)
    (found : set.partitions[i]? = some p) :
    ∃ edits, ¬ ReportsIssues usable (Edit.applyAll edits set).partitions := by
  induction number : set.partitions.length generalizing set i with
  | zero =>
      have bound := (List.getElem?_eq_some_iff.mp found).1
      omega
  | succ count ih =>
      have bound := (List.getElem?_eq_some_iff.mp found).1
      by_cases alone : count = 0
      · refine ⟨[], fun reports => ?_⟩
        obtain ⟨j, q, differs, there, _⟩ := (reports i p found).overlap.mp marked
        have small := (List.getElem?_eq_some_iff.mp there).1
        change j < set.partitions.length at small
        omega
      · obtain ⟨other, small, place, moved⟩ : ∃ other, other < set.partitions.length ∧
            ∃ place, (set.partitions.eraseIdx other)[place]? = some p := by
          by_cases first : i = 0
          · refine ⟨1, by omega, 0, ?_⟩
            rw [List.getElem?_eraseIdx, if_pos (by omega), ← first]
            exact found
          · refine ⟨0, by omega, i - 1, ?_⟩
            rw [List.getElem?_eraseIdx, if_neg (by omega), Nat.sub_add_cancel (by omega)]
            exact found
        have remaining : ∀ q ∈ set.partitions.eraseIdx other, q.Whole :=
          fun q member => whole q (List.mem_of_mem_eraseIdx member)
        obtain ⟨after, erased⟩ : ∃ after : PartitionSet,
            after = { set with partitions := set.partitions.eraseIdx other } := ⟨_, rfl⟩
        have list : after.partitions = set.partitions.eraseIdx other := by rw [erased]
        have table : after.tableKind = .gpt := by rw [erased]; exact gpt
        rw [← list] at moved remaining
        have kept : after.refreshOverlapIssues.partitions[place]? = some p := by
          rcases PartitionSet.getElem?_refreshed table remaining moved with
            ⟨_, same⟩ | ⟨spanned, _⟩
          · exact same
          · exact absurd spanless spanned
        have fewer : after.refreshOverlapIssues.partitions.length = count := by
          have views := congrArg List.length (PartitionSet.map_withoutIssues_refresh after)
          rw [List.length_map, List.length_map, list, List.length_eraseIdx, if_pos small] at views
          omega
        have called : (Edit.remove (.index other)).apply set = after.refreshOverlapIssues := by
          have resolved : set.resolve (.index other) = .ok other := if_neg (by omega)
          rw [Edit.apply, PartitionSet.exec_remove, resolved, erased]
        obtain ⟨edits, flawed⟩ := ih (by rw [PartitionSet.tableKind_refresh, table])
          (whole_refresh remaining) kept fewer
        refine ⟨.remove (.index other) :: edits, ?_⟩
        rw [Edit.applyAll, List.foldl_cons, called]
        exact flawed

/-- The issues of every edited set are what the reader would report of its partitions
under the same header, exactly when no probed entry without a span shares a sector with
another. -/
theorem editedIssues_exact_iff {crc32 : List UInt8 → UInt32} {dev : BlockRead}
    {set : PartitionSet} (read : PartitionSet.fromProbe crc32 dev = .ok set)
    (gpt : set.tableKind = .gpt) :
    ∃ lba1 header, dev.readAt 512 512 = .ok lba1 ∧ parseHeader crc32 lba1 = .ok header ∧
      ((∀ edits, ReportsIssues (header.firstUsableLba, header.lastUsableLba)
            (Edit.applyAll edits set).partitions ∧
          withIssues header ((Edit.applyAll edits set).partitions.map fun p => (p, p.lbaSpan)) =
            (Edit.applyAll edits set).partitions) ↔
        SpanlessApart set.partitions) := by
  obtain ⟨lba0, lba1, header, array, source⟩ := readGpt_of_fromProbe read gpt
  refine ⟨lba1, header, source.lba1_read, source.parsed, ?_⟩
  constructor
  · intro always k j p q found there differs spanless shares
    have reports := (entries_of_parseEntryArray source.entries).1
    have marked := (reports k p found).overlap.mpr ⟨j, q, differs, there, shares⟩
    obtain ⟨edits, flawed⟩ := exists_flawed spanless marked gpt (whole_of_readGpt source) found
    exact flawed (always edits).1
  · intro apart edits
    have exact := (exactIssues_of_readGpt source apart).applyAll edits
    exact ⟨exact.reports,
      withIssues_of_reportsIssues (fun p member => (exact.whole p member).ordered) exact.reports⟩

/-- Two partitions with spans: however they are edited, their issues are exact. -/
theorem editedIssues_exact_taggedDisk :
    ∃ lba1 header, taggedDisk.toBlockRead.readAt 512 512 = .ok lba1 ∧
      parseHeader CyclicSums.ieee lba1 = .ok header ∧
      ∀ edits, ReportsIssues (header.firstUsableLba, header.lastUsableLba)
          (Edit.applyAll edits taggedSet).partitions ∧
        withIssues header
            ((Edit.applyAll edits taggedSet).partitions.map fun p => (p, p.lbaSpan)) =
          (Edit.applyAll edits taggedSet).partitions := by
  obtain ⟨lba1, header, read, parsed, exact⟩ := editedIssues_exact_iff fromProbe_taggedDisk rfl
  have spans : ∀ p ∈ taggedSet.partitions, ¬ p.Spanless := by decide +kernel
  exact ⟨lba1, header, read, parsed, exact.mpr (.of_spans spans)⟩

/-! ## Two entries from LBA 1 on -/

/-- Entry 0 ends at the last byte there is, entry 1 with its first sector. -/
def endlessRecord (i : Nat) : EntryRecord where
  typeGuid := .filled 1
  uuid := .filled (UInt8.ofNat (i + 1))
  startLba := 1
  endLba := if i = 0 then 0x7FFFFFFFFFFFFF else 1
  attributes := 0
  label := none

def endlessBlock (i : Nat) : List UInt8 :=
  if i < 2 then (endlessRecord i).image 128 [] else List.replicate 128 0

theorem length_endlessBlock (i : Nat) : (endlessBlock i).length = 128 := by
  unfold endlessBlock
  split
  next => exact EntryRecord.length_image (by simp)
  next => exact List.length_replicate

def endlessArray : List UInt8 := blocks endlessBlock 4

theorem length_endlessArray : endlessArray.length = 512 :=
  length_blocks fun i _ => length_endlessBlock i

section Endless

variable (crc32 : List UInt8 → UInt32)

/-- The header at LBA 1 of three sectors. -/
def endlessHeader : List UInt8 :=
  buildHeader crc32 1 2 2 (3, 3) unusedTypeGuid (crc32 endlessArray) fourEntries

/-- What the header parses to. -/
def endlessFields : Header :=
  builtHeader 1 2 2 (3, 3) unusedTypeGuid (crc32 endlessArray) fourEntries crc32

/-- Three sectors: zeros, the header and the array. -/
def endlessDevice : ByteDevice where
  bytes := List.replicate 512 0 ++ endlessHeader crc32 ++ endlessArray
  writable := true
  flushed := .ok ()
  journal := []
  length_lt := by
    rw [List.length_append, List.length_append, List.length_replicate, length_endlessArray,
      endlessHeader, length_buildHeader]
    decide

/-- The endless partition as the probe reports it. -/
def endlessPartition : Partition :=
  { (endlessRecord 0).partition 0 1536 with
    issues := EntryIssue.beforeFirstUsable ||| EntryIssue.pastLastUsable |||
      EntryIssue.overlapsAnother }

/-- The partition inside it. -/
def innerPartition : Partition :=
  { (endlessRecord 1).partition 1 1536 with
    issues := EntryIssue.beforeFirstUsable ||| EntryIssue.overlapsAnother }

/-- The set of the device. -/
def endlessSet : PartitionSet where
  tableKind := .gpt
  partitions := [endlessPartition, innerPartition]
  diskSize := 1536
  diskGuid := unusedTypeGuid
  gptEntryTails := fun _ => none
  gptGeometry := GptGeometry.fromHeader (endlessFields crc32)
  reserved := []

/-- The set with the inner partition gone. -/
def aloneSet : PartitionSet := { endlessSet crc32 with partitions := [endlessPartition] }

theorem bytes_endlessDevice : (endlessDevice crc32).bytes =
    List.replicate 512 0 ++ endlessHeader crc32 ++ endlessArray := by
  simp only [endlessDevice]

theorem length_endlessHeader : (endlessHeader crc32).length = 512 := length_buildHeader crc32

theorem length_endlessDevice : (endlessDevice crc32).bytes.length = 1536 := by
  rw [bytes_endlessDevice, List.length_append, List.length_append, List.length_replicate,
    length_endlessArray, length_endlessHeader]

theorem sizeBytes_endlessDevice : (endlessDevice crc32).toBlockRead.sizeBytes = 1536 := by
  apply UInt64.toNat_inj.mp
  rw [(endlessDevice crc32).holds.size, length_endlessDevice]
  rfl

theorem parseEntries_endless : parseEntries 128 1536 endlessArray (List.range 4) =
    .ok [((endlessRecord 0).partition 0 1536, 1, 0x7FFFFFFFFFFFFF),
      ((endlessRecord 1).partition 1 1536, 1, 1)] := by
  have each : ∀ i ∈ List.range 4, parseEntry 128 1536 endlessArray i =
      .ok (if i < 2 then some ((endlessRecord i).partition i 1536, (endlessRecord i).startLba,
        (endlessRecord i).endLba) else none) := by
    intro i member
    have present := List.mem_range.mp member
    split
    next small =>
        have cases : i = 0 ∨ i = 1 := by omega
        apply parseEntry_image_of_lt (fun i _ => length_endlessBlock i) present 1536 (by simp)
          _ _ _ _ (if_pos small)
        · simp only [endlessRecord]
          decide
        · rcases cases with rfl | rfl <;> decide
        · rcases cases with rfl | rfl <;> decide
        · rcases cases with rfl | rfl <;> decide
    next large =>
        exact parseEntry_unused (fun i _ => length_endlessBlock i) present 1536 (by decide)
          (if_neg large)
  rw [parseEntries_eq_ok each]
  rfl

theorem withIssues_endless :
    withIssues (endlessFields crc32) [((endlessRecord 0).partition 0 1536, 1, 0x7FFFFFFFFFFFFF),
      ((endlessRecord 1).partition 1 1536, 1, 1)] = [endlessPartition, innerPartition] := by
  simp only [withIssues, endlessFields, builtHeader]
  decide

theorem parseEntryArray_endless :
    parseEntryArray crc32 (endlessDevice crc32) (endlessFields crc32) =
      .ok ([endlessPartition, innerPartition], endlessArray) := by
  have front : (List.replicate 512 0 ++ endlessHeader crc32).length = 1024 := by
    rw [List.length_append, List.length_replicate, length_endlessHeader]
  have array : slice (endlessDevice crc32).bytes 1024 512 = endlessArray := by
    have held := @slice_append_right _ (List.replicate 512 0 ++ endlessHeader crc32)
      endlessArray 1024 512 (by rw [front])
    have whole := slice_full endlessArray
    rw [length_endlessArray] at whole
    rw [front, Nat.sub_self, whole] at held
    rw [bytes_endlessDevice, held]
  have describes : Describes (endlessFields crc32) fourEntries (3, 3) :=
    describes_builtHeader crc32 _ _ _ _ _ _ _
  have offset : (endlessFields crc32).partitionEntryLba.toNat = 2 := rfl
  have bytes : fourEntries.arrayBytes.toNat = 512 := by decide
  have inside : (endlessFields crc32).partitionEntryLba.toNat * 512 +
      fourEntries.arrayBytes.toNat ≤ (endlessDevice crc32).bytes.length := by
    rw [length_endlessDevice, offset, bytes]
  have checked : ¬ (crc32 endlessArray ≠ (endlessFields crc32).partitionEntryArrayCrc32) :=
    not_not.mpr rfl
  have entrySize : fourEntries.entrySize.toNat = 128 := rfl
  have entryCount : fourEntries.numEntries.toNat = 4 := rfl
  have reported : (endlessDevice crc32).sizeBytes = 1536 := sizeBytes_endlessDevice crc32
  have place : 2 * 512 = 1024 := rfl
  rw [parseEntryArray_eq crc32 describes inside]
  simp only [offset, bytes, place, array, refuseIf_of_not checked, ok_bind, entrySize,
    entryCount, reported, parseEntries_endless, pure_eq_ok, withIssues_endless]

/-- The device probes to its two partitions. -/
theorem fromProbe_endless :
    PartitionSet.fromProbe crc32 (endlessDevice crc32) = .ok (endlessSet crc32) := by
  have header : slice (endlessDevice crc32).bytes 512 512 = endlessHeader crc32 := by
    have held := @slice_append_middle _ (List.replicate 512 0) (endlessHeader crc32)
      endlessArray 0 512 (by rw [length_endlessHeader])
    have whole := slice_full (endlessHeader crc32)
    rw [length_endlessHeader] at whole
    rw [List.length_replicate, Nat.add_zero, whole] at held
    rw [bytes_endlessDevice, held]
  have signature : slice (endlessHeader crc32) 0 8 = gptSignature :=
    slice_buildHeader crc32 ⟨HeaderOffsets.signature, gptSignature⟩ (by simp [headerWrites])
  have signed : (endlessDevice crc32).HasGptSignature := by
    refine ⟨by rw [length_endlessDevice]; decide, ?_⟩
    have inner := @slice_slice _ (endlessDevice crc32).bytes 512 512 0 8 (by decide)
    rw [header, signature, Nat.add_zero] at inner
    exact inner.symm
  have parsed : parseHeader crc32 (endlessHeader crc32) = .ok (endlessFields crc32) :=
    parseHeader_buildHeader crc32 fourEntries_wellShaped
  have own : ¬ ((endlessFields crc32).myLba ≠ 1) := not_not.mpr rfl
  have listed : parseGpt crc32 (endlessDevice crc32) (endlessHeader crc32) =
      .ok [endlessPartition, innerPartition] := by
    simp only [parseGpt, parsed, ok_bind, refuseIf_of_not own, parseEntryArray_endless]
    rfl
  have probed : probe crc32 (endlessDevice crc32) =
      .ok (.gpt, [endlessPartition, innerPartition]) := by
    rw [probe, probeInner_of_signature crc32 false signed, header, probeGpt, listed]
    rfl
  have first : BlockRead.read (endlessDevice crc32) 0 512 = .ok (List.replicate 512 0) := by
    have held := @slice_append_left _ (List.replicate 512 0)
      (endlessHeader crc32 ++ endlessArray) 0 512 (by rw [List.length_replicate])
    rw [read_of_le (by rw [length_endlessDevice]; decide), bytes_endlessDevice,
      List.append_assoc, held, slice_replicate _ (by decide)]
  have second : BlockRead.read (endlessDevice crc32) 512 512 = .ok (endlessHeader crc32) := by
    rw [read_of_le (by rw [length_endlessDevice]; decide), header]
  have tails : entryTails crc32 (endlessDevice crc32) (endlessFields crc32) =
      .ok fun _ => none := by
    refine if_pos ?_
    simp only [endlessFields, builtHeader]
    decide
  have kept : lba0Entries (List.replicate 512 0) = [] := by decide +kernel
  have size : (endlessDevice crc32).toBlockRead.sizeBytes = 1536 := sizeBytes_endlessDevice crc32
  unfold PartitionSet.fromProbe
  rw [probed, ok_bind]
  simp only [first, ok_bind, second, parsed, tails, size, kept, reduceCtorEq, if_false, if_true]
  rfl

end Endless

/-- With the inner partition removed, the endless one still claims to overlap another. -/
theorem endless_flag_kept :
    ∃ set, PartitionSet.fromProbe CyclicSums.ieee (endlessDevice CyclicSums.ieee) = .ok set ∧
      set.tableKind = .gpt ∧
      ∀ usable, ¬ ReportsIssues usable
        (Edit.applyAll [.remove (.index 1)] set).partitions := by
  refine ⟨endlessSet CyclicSums.ieee, fromProbe_endless _, rfl, fun usable reports => ?_⟩
  have whole : ∀ p ∈ (aloneSet CyclicSums.ieee).partitions, p.Whole := by
    intro p member
    rw [List.mem_singleton.mp member]
    exact ⟨by decide, by decide, by decide⟩
  have spanless : endlessPartition.Spanless := by decide
  have kept : (aloneSet CyclicSums.ieee).refreshOverlapIssues.partitions[0]? =
      some endlessPartition := by
    have alone : (aloneSet CyclicSums.ieee).partitions[0]? = some endlessPartition := rfl
    have gpt : (aloneSet CyclicSums.ieee).tableKind = .gpt := rfl
    rcases PartitionSet.getElem?_refreshed gpt whole alone with
      ⟨_, same⟩ | ⟨spanned, _⟩
    · exact same
    · exact absurd spanless spanned
  have one : (aloneSet CyclicSums.ieee).refreshOverlapIssues.partitions.length = 1 := by
    have views := congrArg List.length
      (PartitionSet.map_withoutIssues_refresh (aloneSet CyclicSums.ieee))
    rwa [List.length_map, List.length_map] at views
  have called : Edit.applyAll [.remove (.index 1)] (endlessSet CyclicSums.ieee) =
      (aloneSet CyclicSums.ieee).refreshOverlapIssues := by
    have resolved : (endlessSet CyclicSums.ieee).resolve (.index 1) = .ok 1 := by
      simp only [PartitionSet.resolve, endlessSet]
      decide
    rw [Edit.applyAll, List.foldl_cons, List.foldl_nil, Edit.apply, PartitionSet.exec_remove,
      resolved]
    rfl
  have marked : endlessPartition.issues &&& EntryIssue.overlapsAnother ≠ 0 := by decide
  rw [called] at reports
  obtain ⟨j, q, differs, there, _⟩ := (reports 0 endlessPartition kept).overlap.mp marked
  have alone := (List.getElem?_eq_some_iff.mp there).1
  omega

end DiskPartitions
