import DiskPartitions.EntryTable
import DiskPartitions.PartitionSets

/-!
# Sets that came off a device

What a successful probe says about the set it makes: which sectors it was read
from, and that its partitions sit in slots of their own, inside the table and
apart from the entries the set only keeps.
-/

namespace DiskPartitions

open Slices LittleEndian CheckedWords Refusals

/-! ## The entries of an array -/

section Entries

variable {size : Nat} {deviceSize : UInt64} {array : List UInt8}

/-- What one slot holds when reading it did not fail. -/
def entryIn (size : Nat) (deviceSize : UInt64) (array : List UInt8) (i : Nat) :
    Option (Partition × UInt64 × UInt64) :=
  (parseEntry size deviceSize array i).toOption.join

/-- The entries found are those of the slots, in order, and no slot failed. -/
theorem entries_of_parseEntries {slots : List Nat}
    {found : List (Partition × UInt64 × UInt64)}
    (parsed : parseEntries size deviceSize array slots = .ok found) :
    (∀ i ∈ slots, parseEntry size deviceSize array i =
      .ok (entryIn size deviceSize array i)) ∧
      found = slots.filterMap (entryIn size deviceSize array) := by
  induction slots generalizing found with
  | nil =>
      cases parsed
      simp
  | cons i rest ih =>
      obtain ⟨entry, read, parsed⟩ := bind_eq_ok.mp parsed
      have here : entryIn size deviceSize array i = entry := by
        rw [entryIn, read]
        rfl
      cases entry with
      | none =>
          obtain ⟨others, same⟩ := ih parsed
          rw [List.forall_mem_cons, List.filterMap_cons_none here, here]
          exact ⟨⟨read, others⟩, same⟩
      | some value =>
          obtain ⟨tail, later, same⟩ := bind_eq_ok.mp parsed
          cases same
          obtain ⟨others, rfl⟩ := ih later
          rw [List.forall_mem_cons, List.filterMap_cons_some here, here]
          exact ⟨⟨read, others⟩, rfl⟩

/-- A slot that holds an entry was read as it. -/
theorem parseEntry_of_entryIn {i : Nat} {entry : Partition × UInt64 × UInt64}
    (found : entryIn size deviceSize array i = some entry) :
    parseEntry size deviceSize array i = .ok (some entry) := by
  unfold entryIn at found
  cases read : parseEntry size deviceSize array i with
  | error error =>
      rw [read] at found
      cases found
  | ok value =>
      rw [read] at found
      exact congrArg Except.ok found

/-- A used entry carries the slot it was read from. -/
theorem slot_of_entryIn {i : Nat} {entry : Partition × UInt64 × UInt64}
    (found : entryIn size deviceSize array i = some entry) :
    entry.1.slot = some (UInt32.ofNat i) := by
  have read := parseEntry_of_entryIn found
  simp only [parseEntry] at read
  split at read
  · cases read
  · obtain ⟨_, read⟩ := refuseIf_bind_eq_ok.mp read
    obtain ⟨_, _, read⟩ := bind_eq_ok.mp read
    obtain ⟨_, _, read⟩ := bind_eq_ok.mp read
    obtain ⟨_, _, read⟩ := bind_eq_ok.mp read
    cases read
    rfl

/-- Setting the issues of the entries found changes nothing else. -/
theorem map_withIssues {γ : Type} {view : Partition → γ}
    (ignores : ∀ p issues, view { p with issues } = view p) (header : Header)
    (found : List (Partition × UInt64 × UInt64)) :
    (withIssues header found).map view = found.map fun entry => view entry.1 := by
  have lengths : (markOverlaps (found.map Prod.snd)).length = found.length := by
    rw [length_markOverlaps, List.length_map]
  unfold withIssues
  apply List.ext_getElem
  · simp [lengths]
  · intro i _ _
    simp only [List.getElem_map, List.getElem_zipWith]
    exact ignores _ _

/-- The partitions of an array are its used entries with their issues. -/
theorem found_of_parseEntryArray {crc32 : List UInt8 → UInt32} {dev : BlockRead}
    {header : Header} {parts : List Partition}
    (parsed : parseEntryArray crc32 dev header = .ok (parts, array)) :
    ∃ found, found = (List.range header.numPartitionEntries.toNat).filterMap
        (entryIn header.partitionEntrySize.toNat dev.sizeBytes array) ∧
      parts = withIssues header found := by
  obtain ⟨_, _, parsed⟩ := bind_eq_ok.mp parsed
  obtain ⟨_, _, parsed⟩ := bind_eq_ok.mp parsed
  obtain ⟨_, parsed⟩ := refuseIf_bind_eq_ok.mp parsed
  obtain ⟨_, _, parsed⟩ := bind_eq_ok.mp parsed
  obtain ⟨_, parsed⟩ := refuseIf_bind_eq_ok.mp parsed
  obtain ⟨found, entries, parsed⟩ := bind_eq_ok.mp parsed
  cases parsed
  exact ⟨found, (entries_of_parseEntries entries).2, rfl⟩

end Entries

/-! ## What a probe read -/

/-- What a set read off a GPT was made from. -/
structure PartitionSet.ReadGpt (crc32 : List UInt8 → UInt32) (dev : BlockRead)
    (set : PartitionSet) (lba0 lba1 : List UInt8) (header : Header) (array : List UInt8) :
    Prop where
  tableKind : set.tableKind = .gpt
  lba0_read : dev.readAt 0 512 = .ok lba0
  lba1_read : dev.readAt 512 512 = .ok lba1
  signed : slice lba1 0 8 = gptSignature
  parsed : parseHeader crc32 lba1 = .ok header
  myLba : header.myLba = 1
  entries : parseEntryArray crc32 dev header = .ok (set.partitions, array)
  tails : entryTails crc32 dev header = .ok set.gptEntryTails
  reserved : set.reserved = lba0Entries lba0
  diskSize : set.diskSize = dev.sizeBytes
  diskGuid : set.diskGuid = header.diskGuid
  geometry : set.gptGeometry = GptGeometry.fromHeader header

/-- What a set read off an MBR was made from. -/
structure PartitionSet.ReadMbr (dev : BlockRead) (set : PartitionSet) (lba0 : List UInt8) :
    Prop where
  tableKind : set.tableKind = .mbr
  lba0_read : dev.readAt 0 512 = .ok lba0
  partitions : set.partitions = parseMbr lba0 dev.sizeBytes
  reserved : set.reserved = reservedEntries lba0

theorem read_eq_ok {dev : BlockRead} {offset len : Nat} {bytes : List UInt8} :
    dev.read offset len = .ok bytes ↔ dev.readAt offset len = .ok bytes := by
  unfold BlockRead.read
  cases dev.readAt offset len with
  | error error => simp [Except.mapError]
  | ok value => simp [Except.mapError]

/-- LBA 1 with a signature was read, not made up. -/
theorem lba1_of_signed {dev : BlockRead} {lba1 : List UInt8} (read : readLba1 dev = .ok lba1)
    (signed : slice lba1 0 8 = gptSignature) : dev.readAt 512 512 = .ok lba1 := by
  unfold readLba1 at read
  cases found : dev.readAt 512 512 with
  | ok sector =>
      rw [found] at read
      rw [Except.ok.inj read]
  | error error =>
      rw [found] at read
      replace read : (if _ then Except.ok (List.replicate 512 0) else _) = Except.ok lba1 := read
      rw [ite_eq_iff] at read
      rcases read with ⟨_, zeros⟩ | ⟨_, failed⟩
      · cases zeros
        rw [slice_replicate _ (by omega)] at signed
        exact absurd signed (by decide)
      · cases failed

/-- The array a header describes was read where the header says. -/
theorem array_read_of_parseEntryArray {crc32 : List UInt8 → UInt32} {dev : BlockRead}
    {header : Header} {parts : List Partition} {array : List UInt8}
    (parsed : parseEntryArray crc32 dev header = .ok (parts, array)) :
    dev.readAt (header.partitionEntryLba.toNat * 512)
      (header.numPartitionEntries.toNat * header.partitionEntrySize.toNat) = .ok array := by
  obtain ⟨offset, located, parsed⟩ := bind_eq_ok.mp parsed
  obtain ⟨_, _, parsed⟩ := bind_eq_ok.mp parsed
  obtain ⟨_, parsed⟩ := refuseIf_bind_eq_ok.mp parsed
  obtain ⟨bytes, read, parsed⟩ := bind_eq_ok.mp parsed
  obtain ⟨_, parsed⟩ := refuseIf_bind_eq_ok.mp parsed
  obtain ⟨_, _, parsed⟩ := bind_eq_ok.mp parsed
  cases parsed
  have start := checkedMul_eq_some.mp (orRefuse_eq_ok.mp located)
  have total := GptGeometry.toNat_arrayBytes (GptGeometry.fromHeader header)
  change (header.numPartitionEntries.toUInt64 * header.partitionEntrySize.toUInt64).toNat =
    header.numPartitionEntries.toNat * header.partitionEntrySize.toNat at total
  rw [toNat_sectorSize] at start
  rw [start, total] at read
  exact read_eq_ok.mp read

/-- A probe succeeds when the reading behind it does, without the backup. -/
theorem probe_eq_ok {crc32 : List UInt8 → UInt32} {dev : BlockRead} {kind : TableKind}
    {parts : List Partition} :
    probe crc32 dev = .ok (kind, parts) ↔
      ∃ source, probeInner crc32 dev false = .ok (kind, parts, source) := by
  unfold probe
  cases probeInner crc32 dev false with
  | error error => simp [Except.map]
  | ok found => simp [Except.map, Prod.ext_iff]

/-- A probe that answers with a GPT parsed the table whose signature is at LBA 1. -/
theorem probe_gpt {crc32 : List UInt8 → UInt32} {dev : BlockRead} {parts : List Partition}
    (probed : probe crc32 dev = .ok (.gpt, parts)) :
    ∃ lba1, dev.readAt 512 512 = .ok lba1 ∧ slice lba1 0 8 = gptSignature ∧
      parseGpt crc32 dev lba1 = .ok parts := by
  obtain ⟨source, inner⟩ := probe_eq_ok.mp probed
  obtain ⟨lba0, _, inner⟩ := bind_eq_ok.mp inner
  obtain ⟨lba1, read, inner⟩ := bind_eq_ok.mp inner
  split at inner
  next signed =>
    refine ⟨lba1, lba1_of_signed read signed, signed, ?_⟩
    unfold probeGpt at inner
    split at inner
    next parsed =>
      cases inner
      exact parsed
    · cases inner
  · unfold probeMbr at inner
    split at inner
    · cases inner
    · split at inner
      · cases inner
      · dsimp only at inner
        split at inner
        · cases inner
        · cases inner

theorem probe_mbr {crc32 : List UInt8 → UInt32} {dev : BlockRead} {parts : List Partition}
    (probed : probe crc32 dev = .ok (.mbr, parts)) :
    ∃ lba0, dev.readAt 0 512 = .ok lba0 ∧ parts = parseMbr lba0 dev.sizeBytes := by
  obtain ⟨source, inner⟩ := probe_eq_ok.mp probed
  obtain ⟨lba0, read, inner⟩ := bind_eq_ok.mp inner
  obtain ⟨lba1, _, inner⟩ := bind_eq_ok.mp inner
  refine ⟨lba0, read_eq_ok.mp read, ?_⟩
  split at inner
  · unfold probeGpt at inner
    split at inner
    · cases inner
    · cases inner
  · unfold probeMbr at inner
    split at inner
    · cases inner
    · split at inner
      · cases inner
      · dsimp only at inner
        split at inner
        · cases inner
        · cases inner
          rfl

/-- A set that came off a device came off a GPT or an MBR. -/
theorem fromProbe_cases {crc32 : List UInt8 → UInt32} {dev : BlockRead} {set : PartitionSet}
    (read : PartitionSet.fromProbe crc32 dev = .ok set) :
    (∃ lba0 lba1 header array, set.ReadGpt crc32 dev lba0 lba1 header array) ∨
      ∃ lba0, set.ReadMbr dev lba0 := by
  unfold PartitionSet.fromProbe at read
  obtain ⟨⟨kind, parts⟩, probed, read⟩ := bind_eq_ok.mp read
  obtain ⟨lba0, lba0Read, read⟩ := bind_eq_ok.mp read
  rw [read_eq_ok] at lba0Read
  cases kind with
  | gpt =>
      obtain ⟨lba1, lba1Read, read⟩ := bind_eq_ok.mp read
      obtain ⟨header, parsed, read⟩ := bind_eq_ok.mp read
      obtain ⟨tails, collected, read⟩ := bind_eq_ok.mp read
      rw [read_eq_ok] at lba1Read
      obtain ⟨again, againRead, signed, table⟩ := probe_gpt probed
      rw [lba1Read] at againRead
      cases againRead
      obtain ⟨other, otherParsed, table⟩ := bind_eq_ok.mp table
      rw [parsed] at otherParsed
      cases otherParsed
      obtain ⟨first, table⟩ := refuseIf_bind_eq_ok.mp table
      obtain ⟨⟨entries, array⟩, arrayRead, table⟩ := bind_eq_ok.mp table
      cases table
      cases read
      exact .inl ⟨lba0, lba1, header, array, {
        tableKind := rfl
        lba0_read := lba0Read
        lba1_read := lba1Read
        signed
        parsed
        myLba := not_not.mp first
        entries := arrayRead
        tails := collected
        reserved := rfl
        diskSize := rfl
        diskGuid := rfl
        geometry := rfl }⟩
  | mbr =>
      cases read
      obtain ⟨again, againRead, table⟩ := probe_mbr probed
      rw [lba0Read] at againRead
      cases againRead
      exact .inr ⟨lba0, rfl, lba0Read, table, rfl⟩

/-- A set has the table and the partitions a probe reports. -/
theorem probe_of_fromProbe {crc32 : List UInt8 → UInt32} {dev : BlockRead}
    {set : PartitionSet} (read : PartitionSet.fromProbe crc32 dev = .ok set) :
    probe crc32 dev = .ok (set.tableKind, set.partitions) := by
  unfold PartitionSet.fromProbe at read
  obtain ⟨⟨kind, parts⟩, probed, read⟩ := bind_eq_ok.mp read
  obtain ⟨_, _, read⟩ := bind_eq_ok.mp read
  rw [probed]
  cases kind with
  | gpt =>
      obtain ⟨_, _, read⟩ := bind_eq_ok.mp read
      obtain ⟨_, _, read⟩ := bind_eq_ok.mp read
      obtain ⟨_, _, read⟩ := bind_eq_ok.mp read
      cases read
      rfl
  | mbr =>
      cases read
      rfl

theorem readGpt_of_fromProbe {crc32 : List UInt8 → UInt32} {dev : BlockRead}
    {set : PartitionSet} (read : PartitionSet.fromProbe crc32 dev = .ok set)
    (gpt : set.tableKind = .gpt) :
    ∃ lba0 lba1 header array, set.ReadGpt crc32 dev lba0 lba1 header array := by
  rcases fromProbe_cases read with source | ⟨_, mbr⟩
  · exact source
  · rw [mbr.tableKind] at gpt
    cases gpt

theorem filterMap_slot (partitions : List Partition) :
    partitions.filterMap Partition.slot = (partitions.map Partition.slot).filterMap id := by
  rw [List.filterMap_map]
  rfl

/-- Items read from a list of places, each carrying the place it was read from, carry
those places in order. -/
theorem slots_sublist {α : Type} {entry : Nat → Option α} {slot : α → Option UInt32}
    (own : ∀ i item, entry i = some item → slot item = some (UInt32.ofNat i))
    (places : List Nat) :
    ((places.filterMap entry).filterMap slot).Sublist (places.map UInt32.ofNat) := by
  induction places with
  | nil => exact .slnil
  | cons i rest ih =>
      rw [List.map_cons]
      cases here : entry i with
      | none =>
          rw [List.filterMap_cons_none here]
          exact ih.cons _
      | some item =>
          rw [List.filterMap_cons_some here, List.filterMap_cons_some (own i item here)]
          exact ih.cons_cons _

theorem toNat_ofNat_place {count : UInt32} {i : Nat} (place : i < count.toNat) :
    (UInt32.ofNat i).toNat = i :=
  UInt32.toNat_ofNat_of_lt' (Nat.lt_trans place count.toNat_lt)

/-- The slots of the partitions read off a GPT come in order. -/
theorem PartitionSet.ReadGpt.slots_sublist {crc32 : List UInt8 → UInt32} {dev : BlockRead}
    {set : PartitionSet} {lba0 lba1 array : List UInt8} {header : Header}
    (read : set.ReadGpt crc32 dev lba0 lba1 header array) :
    (set.partitions.filterMap Partition.slot).Sublist
      ((List.range header.numPartitionEntries.toNat).map UInt32.ofNat) := by
  obtain ⟨found, listed, parts⟩ := found_of_parseEntryArray read.entries
  have slots : set.partitions.map Partition.slot = found.map fun entry => entry.1.slot := by
    rw [parts, map_withIssues fun _ _ => rfl]
  rw [filterMap_slot, slots, List.filterMap_map, listed]
  exact DiskPartitions.slots_sublist (fun i entry here => slot_of_entryIn here) _

/-- Partitions that sit in slots, listed in slot order. -/
def Partition.SlotBefore (p q : Partition) : Prop :=
  ∃ first second, p.slot = some first ∧ q.slot = some second ∧ first < second

/-- The partitions of a parsed array are listed in slot order. -/
theorem slotOrder_of_parseEntryArray {crc32 : List UInt8 → UInt32} {dev : BlockRead}
    {header : Header} {parts : List Partition} {array : List UInt8}
    (parsed : parseEntryArray crc32 dev header = .ok (parts, array)) :
    parts.Pairwise Partition.SlotBefore := by
  obtain ⟨found, listed, rfl⟩ := found_of_parseEntryArray parsed
  have slots : (withIssues header found).map Partition.slot =
      found.map fun entry => entry.1.slot := map_withIssues (fun _ _ => rfl) header found
  have ordered : (found.map fun entry => entry.1.slot).Pairwise fun p q =>
      ∃ first second, p = some first ∧ q = some second ∧ first < second := by
    rw [List.pairwise_map, listed, List.pairwise_filterMap]
    apply List.pairwise_lt_range.imp_of_mem
    intro i j first second before p here q there
    refine ⟨_, _, slot_of_entryIn here, slot_of_entryIn there, ?_⟩
    rw [UInt32.lt_iff_toNat_lt, toNat_ofNat_place (List.mem_range.mp first),
      toNat_ofNat_place (List.mem_range.mp second)]
    exact before
  rw [← slots, List.pairwise_map] at ordered
  exact ordered

/-- Every partition read off a GPT carries the slot it was read from. -/
theorem PartitionSet.ReadGpt.seated {crc32 : List UInt8 → UInt32} {dev : BlockRead}
    {set : PartitionSet} {lba0 lba1 array : List UInt8} {header : Header}
    (read : set.ReadGpt crc32 dev lba0 lba1 header array) {p : Partition}
    (member : p ∈ set.partitions) :
    ∃ i < header.numPartitionEntries.toNat, p.slot = some (UInt32.ofNat i) := by
  obtain ⟨found, listed, parts⟩ := found_of_parseEntryArray read.entries
  have slots : set.partitions.map Partition.slot = found.map fun entry => entry.1.slot := by
    rw [parts, map_withIssues fun _ _ => rfl]
  have carried : p.slot ∈ found.map fun entry => entry.1.slot := by
    rw [← slots]
    exact List.mem_map_of_mem member
  obtain ⟨entry, present, same⟩ := List.mem_map.mp carried
  rw [listed] at present
  obtain ⟨i, place, here⟩ := List.mem_filterMap.mp present
  exact ⟨i, List.mem_range.mp place, by rw [← same]; exact slot_of_entryIn here⟩

end DiskPartitions
