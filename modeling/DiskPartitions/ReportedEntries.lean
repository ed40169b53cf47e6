import DiskPartitions.ProbedSets

/-!
# What a parsed array says about its entries

The byte range of every reported partition is the LBA range of its entry, neither
end wrapped, and its issues are those of that range: against the header's usable
range and against the ranges of the other partitions.
-/

namespace DiskPartitions

open Slices LittleEndian CheckedWords Refusals

/-! ## One entry -/

/-- The inclusive LBA range stored in slot `i` of an entry array. -/
def storedSpan (size : Nat) (array : List UInt8) (i : Nat) : UInt64 × UInt64 :=
  (u64At array (i * size + 32), u64At array (i * size + 40))

/-- The inclusive LBA range of a partition made of whole sectors. -/
def Partition.lbaSpan (p : Partition) : UInt64 × UInt64 :=
  (p.start / sectorSize, p.start / sectorSize + (p.length / sectorSize - 1))

/-- A used entry of the array, read without a wrap. -/
structure EntryOf (size : Nat) (deviceSize : UInt64) (array : List UInt8) (i : Nat)
    (entry : Partition × UInt64 × UInt64) : Prop where
  span : entry.2 = storedSpan size array i
  ordered : entry.2.1 ≤ entry.2.2
  start : entry.1.start.toNat = entry.2.1.toNat * 512
  length : entry.1.length.toNat = (entry.2.2.toNat - entry.2.1.toNat + 1) * 512
  slot : entry.1.slot = some (UInt32.ofNat i)
  kind : entry.1.kind.isGpt = true
  available :
    entry.1.availableLength = availableOnDevice entry.1.start entry.1.length deviceSize

section Entry

variable {size : Nat} {deviceSize : UInt64} {array : List UInt8} {i : Nat}
  {entry : Partition × UInt64 × UInt64}

/-- The sectors of an inclusive range, counted with checked steps. -/
theorem sectorCount_eq_some {first last sectors : UInt64}
    (counted : (checkedSub last first).bind (checkedAdd · 1) = some sectors) :
    sectors.toNat = last.toNat - first.toNat + 1 := by
  obtain ⟨difference, subtracted, added⟩ := Option.bind_eq_some_iff.mp counted
  have distance := checkedSub_eq_some.mp subtracted
  have count := checkedAdd_eq_some.mp added
  have one : (1 : UInt64).toNat = 1 := rfl
  omega

theorem entryOf_of_entryIn (found : entryIn size deviceSize array i = some entry) :
    EntryOf size deviceSize array i entry := by
  have slot := slot_of_entryIn found
  have read := parseEntry_of_entryIn found
  simp only [parseEntry] at read
  split at read
  · cases read
  · obtain ⟨inOrder, read⟩ := refuseIf_bind_eq_ok.mp read
    obtain ⟨start, started, read⟩ := bind_eq_ok.mp read
    obtain ⟨sectors, counted, read⟩ := bind_eq_ok.mp read
    obtain ⟨length, measured, read⟩ := bind_eq_ok.mp read
    have startBytes := checkedMul_eq_some.mp (orRefuse_eq_ok.mp started)
    have count := sectorCount_eq_some (orRefuse_eq_ok.mp counted)
    have lengthBytes := checkedMul_eq_some.mp (orRefuse_eq_ok.mp measured)
    rw [toNat_sectorSize] at startBytes lengthBytes
    rw [count] at lengthBytes
    cases read
    exact ⟨rfl, UInt64.not_lt.mp inOrder, startBytes, lengthBytes, slot, rfl, rfl⟩

namespace EntryOf

/-- An entry's partition lies where its entry says. -/
theorem lbaSpan_eq (read : EntryOf size deviceSize array i entry) :
    entry.1.lbaSpan = entry.2 := by
  have ordered := UInt64.le_iff_toNat_le.mp read.ordered
  have one : (1 : UInt64).toNat = 1 := rfl
  have first : (entry.1.start / sectorSize).toNat = entry.2.1.toNat := by
    rw [UInt64.toNat_div, toNat_sectorSize, read.start]
    omega
  have sectors : (entry.1.length / sectorSize).toNat =
      entry.2.2.toNat - entry.2.1.toNat + 1 := by
    rw [UInt64.toNat_div, toNat_sectorSize, read.length]
    omega
  have past : (entry.1.length / sectorSize - 1).toNat =
      entry.2.2.toNat - entry.2.1.toNat := by
    rw [toNat_sub_of_le (by omega), sectors]
    omega
  have bounded := entry.2.2.toNat_lt
  ext
  · rw [Partition.lbaSpan, first]
  · rw [Partition.lbaSpan, toNat_add_of_lt (by omega), first, past]
    omega

end EntryOf

end Entry

/-! ## The issues of a list -/

/-- The issues of one partition of a list are those of its LBA range. -/
structure IssuesAt (usable : UInt64 × UInt64) (parts : List Partition) (k : Nat)
    (p : Partition) : Prop where
  range : p.issues &&& ~~~EntryIssue.overlapsAnother =
    rangeIssues p.lbaSpan.1 p.lbaSpan.2 usable.1 usable.2
  overlap : p.issues &&& EntryIssue.overlapsAnother ≠ 0 ↔
    ∃ j q, j ≠ k ∧ parts[j]? = some q ∧ SharesSector p.lbaSpan q.lbaSpan

/-- Every partition of the list carries the issues a reader gives it. -/
def ReportsIssues (usable : UInt64 × UInt64) (parts : List Partition) : Prop :=
  ∀ (k : Nat) (p : Partition), parts[k]? = some p → IssuesAt usable parts k p

/-- The range issues leave the overlap bit alone. -/
theorem rangeIssues_overlap (startLba endLba first last : UInt64) (overlap : Bool) :
    let issues := rangeIssues startLba endLba first last
    let marked := if overlap then issues ||| EntryIssue.overlapsAnother else issues
    marked &&& ~~~EntryIssue.overlapsAnother = issues ∧
      (marked &&& EntryIssue.overlapsAnother ≠ 0 ↔ overlap = true) := by
  unfold rangeIssues
  by_cases before : startLba < first <;>
    by_cases past : last < startLba ∨ last < endLba <;>
      cases overlap <;> simp only [before, past, if_true, if_false] <;> decide

section Marked

variable {usable : UInt64 × UInt64} {parts : List Partition}

/-- A flag of the LBA ranges says whether another partition has a sector of this one. -/
theorem markOverlaps_lbaSpan_iff (ordered : ∀ p ∈ parts, p.lbaSpan.1 ≤ p.lbaSpan.2) {k : Nat}
    {p : Partition} {overlap : Bool} (found : parts[k]? = some p)
    (flag : (markOverlaps (parts.map Partition.lbaSpan))[k]? = some overlap) :
    overlap = true ↔ ∃ j q, j ≠ k ∧ parts[j]? = some q ∧ SharesSector p.lbaSpan q.lbaSpan := by
  have spans : ∀ span ∈ parts.map Partition.lbaSpan, span.1 ≤ span.2 := by
    intro span member
    obtain ⟨q, present, rfl⟩ := List.mem_map.mp member
    exact ordered q present
  have bound : k < parts.length := (List.getElem?_eq_some_iff.mp found).1
  have flagIff := (markOverlaps_flag_iff spans).2 k
  rw [flag, Option.some.injEq] at flagIff
  have spanAt : ∀ j q, parts[j]? = some q →
      (parts.map Partition.lbaSpan).getD j (0, 0) = q.lbaSpan := by
    intro j q there
    rw [List.getD_eq_getElem?_getD, List.getElem?_map, there]
    rfl
  rw [flagIff, List.length_map, spanAt k p found]
  constructor
  · rintro ⟨_, j, inside, other, shares⟩
    have there : parts[j]? = some parts[j] := List.getElem?_eq_getElem inside
    rw [spanAt j _ there] at shares
    exact ⟨j, _, other, there, shares⟩
  · rintro ⟨j, q, other, there, shares⟩
    rw [← spanAt j q there] at shares
    exact ⟨bound, j, (List.getElem?_eq_some_iff.mp there).1, other, shares⟩

/-- Partitions whose issues are set from their LBA ranges report their issues. -/
theorem reportsIssues_of_marked
    (ordered : ∀ p ∈ parts, p.lbaSpan.1 ≤ p.lbaSpan.2)
    (marked : ∀ (k : Nat) (p : Partition), parts[k]? = some p → ∃ overlap : Bool,
      (markOverlaps (parts.map Partition.lbaSpan))[k]? = some overlap ∧
      p.issues = if overlap then
        rangeIssues p.lbaSpan.1 p.lbaSpan.2 usable.1 usable.2 ||| EntryIssue.overlapsAnother
      else rangeIssues p.lbaSpan.1 p.lbaSpan.2 usable.1 usable.2) :
    ReportsIssues usable parts := by
  intro k p found
  obtain ⟨overlap, flag, issues⟩ := marked k p found
  obtain ⟨range, bit⟩ := rangeIssues_overlap p.lbaSpan.1 p.lbaSpan.2 usable.1 usable.2 overlap
  rw [← issues] at range bit
  exact ⟨range, bit.trans (markOverlaps_lbaSpan_iff ordered found flag)⟩

end Marked

/-- The entries found, once marked, report their issues. -/
theorem reportsIssues_withIssues {header : Header}
    {found : List (Partition × UInt64 × UInt64)}
    (spans : ∀ entry ∈ found, entry.1.lbaSpan = entry.2 ∧ entry.2.1 ≤ entry.2.2) :
    ReportsIssues (header.firstUsableLba, header.lastUsableLba)
      (withIssues header found) := by
  have kept : (withIssues header found).map Partition.lbaSpan = found.map Prod.snd := by
    rw [map_withIssues fun _ _ => rfl]
    exact List.map_congr_left fun entry member => (spans entry member).1
  apply reportsIssues_of_marked
  · intro p member
    have present := List.mem_map_of_mem (f := Partition.lbaSpan) member
    rw [kept] at present
    obtain ⟨entry, found, same⟩ := List.mem_map.mp present
    rw [← same]
    exact (spans entry found).2
  · intro k p there
    rw [kept]
    simp only [withIssues, List.getElem?_zipWith_eq_some] at there
    obtain ⟨entry, overlap, here, flag, rfl⟩ := there
    refine ⟨overlap, flag, ?_⟩
    have own := (spans entry (List.mem_of_getElem? here)).1
    change _ = if overlap then rangeIssues entry.1.lbaSpan.1 entry.1.lbaSpan.2 _ _ ||| _
      else rangeIssues entry.1.lbaSpan.1 entry.1.lbaSpan.2 _ _
    rw [own]

/-- The partitions of an array, in slot order, each read off its own entry. -/
theorem entries_of_parseEntryArray {crc32 : List UInt8 → UInt32} {dev : BlockRead}
    {header : Header} {parts : List Partition} {array : List UInt8}
    (parsed : parseEntryArray crc32 dev header = .ok (parts, array)) :
    ReportsIssues (header.firstUsableLba, header.lastUsableLba) parts ∧
      ∀ p ∈ parts, ∃ i < header.numPartitionEntries.toNat, ∃ entry,
        EntryOf header.partitionEntrySize.toNat dev.sizeBytes array i entry ∧
          p = { entry.1 with issues := p.issues } := by
  obtain ⟨found, listed, rfl⟩ := found_of_parseEntryArray parsed
  have read : ∀ entry ∈ found, ∃ i < header.numPartitionEntries.toNat,
      EntryOf header.partitionEntrySize.toNat dev.sizeBytes array i entry := by
    intro entry member
    rw [listed] at member
    obtain ⟨i, place, here⟩ := List.mem_filterMap.mp member
    exact ⟨i, List.mem_range.mp place, entryOf_of_entryIn here⟩
  constructor
  · apply reportsIssues_withIssues
    intro entry member
    obtain ⟨i, _, own⟩ := read entry member
    exact ⟨own.lbaSpan_eq, own.ordered⟩
  · intro p member
    obtain ⟨k, here⟩ := List.mem_iff_getElem?.mp member
    simp only [withIssues, List.getElem?_zipWith_eq_some] at here
    obtain ⟨entry, overlap, present, _, rfl⟩ := here
    obtain ⟨i, place, own⟩ := read entry (List.mem_of_getElem? present)
    exact ⟨i, place, entry, own, rfl⟩

end DiskPartitions
