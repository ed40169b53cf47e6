import DiskPartitions.EntryTable
import DiskPartitions.MbrWriter

/-!
# The sector an MBR commit builds and the volumes a probe finds in it

LBA 0 is boot code, four entries of sixteen bytes and a signature.  A commit
rebuilds the entries: a reserved entry keeps its bytes, a partition gets an image
of its own, and every other slot is zeros.  Reading the sector finds the
partitions of volume types again, in slot order.
-/

namespace DiskPartitions

open Slices LittleEndian CheckedWords Refusals WriteJournal KeyOrder

/-! ## Sectors by their parts -/

/-- A sector of boot code, four entries and a signature. -/
def mbrSector (boot : List UInt8) (block : Nat → List UInt8) (signature : List UInt8) :
    List UInt8 :=
  boot ++ blocks block MbrLayout.entryCount ++ signature

/-- Every entry has sixteen bytes. -/
def EntryWidths (block : Nat → List UInt8) : Prop :=
  ∀ i < MbrLayout.entryCount, (block i).length = MbrLayout.entrySize

theorem EntryWidths.update {block : Nat → List UInt8} (widths : EntryWidths block) (slot : Nat)
    {entry : List UInt8} (width : entry.length = MbrLayout.entrySize) :
    EntryWidths (Function.update block slot entry) := by
  intro i bound
  by_cases same : i = slot
  · subst same
    rw [Function.update_self, width]
  · rw [Function.update_of_ne same, widths i bound]

section Parts

variable {boot signature : List UInt8} {block : Nat → List UInt8} {slot start : Nat}
  (bootLength : boot.length = MbrLayout.tableStart) (widths : EntryWidths block)
  (bounded : slot < MbrLayout.entryCount)

include widths in
theorem length_entries : (blocks block MbrLayout.entryCount).length = 64 :=
  length_blocks widths

include widths bounded in
theorem entry_inside {len : Nat} (inside : start + len ≤ MbrLayout.entrySize) :
    slot * MbrLayout.entrySize + start + len ≤ (blocks block MbrLayout.entryCount).length := by
  rw [length_entries widths]
  unfold MbrLayout.entryCount at bounded
  unfold MbrLayout.entrySize at inside ⊢
  omega

include bootLength widths bounded

theorem splice_mbrSector {data : List UInt8}
    (inside : start + data.length ≤ MbrLayout.entrySize) :
    splice (mbrSector boot block signature) (MbrLayout.entryAt slot + start) data =
      mbrSector boot (Function.update block slot (splice (block slot) start data)) signature := by
  have place : MbrLayout.entryAt slot + start =
      boot.length + (slot * MbrLayout.entrySize + start) := by
    rw [bootLength, MbrLayout.entryAt, Nat.add_assoc]
  rw [place, mbrSector, splice_append_middle (entry_inside widths bounded inside),
    splice_blocks widths bounded inside, mbrSector]

theorem slice_mbrSector {len : Nat} (inside : start + len ≤ MbrLayout.entrySize) :
    slice (mbrSector boot block signature) (MbrLayout.entryAt slot + start) len =
      slice (block slot) start len := by
  have place : MbrLayout.entryAt slot + start =
      boot.length + (slot * MbrLayout.entrySize + start) := by
    rw [bootLength, MbrLayout.entryAt, Nat.add_assoc]
  rw [place, mbrSector, slice_append_middle (entry_inside widths bounded inside),
    slice_blocks widths bounded inside]

theorem applyAll_mbrSector {writes : List (Write UInt8)}
    (inside : ∀ write ∈ writes, write.Inside MbrLayout.entrySize) :
    applyAll (writes.map (Write.shift (MbrLayout.entryAt slot)))
        (mbrSector boot block signature) =
      mbrSector boot (Function.update block slot (applyAll writes (block slot))) signature := by
  induction writes generalizing block with
  | nil => simp
  | cons write writes ih =>
      have first : write.Inside MbrLayout.entrySize := inside write (by simp)
      have stepped : (write.shift (MbrLayout.entryAt slot)).apply
            (mbrSector boot block signature) =
          mbrSector boot (Function.update block slot (write.apply (block slot))) signature :=
        splice_mbrSector bootLength widths bounded first
      have width : (write.apply (block slot)).length = MbrLayout.entrySize := by
        rw [Write.length_apply (by rw [widths slot bounded]; exact first), widths slot bounded]
      rw [List.map_cons, applyAll_cons, stepped, ih (widths.update slot width)
        (fun other member => inside other (by simp [member])),
        Function.update_self, Function.update_idem, applyAll_cons]

theorem byteAt_mbrSector (inside : start < MbrLayout.entrySize) :
    byteAt (mbrSector boot block signature) (MbrLayout.entryAt slot + start) =
      byteAt (block slot) start := by
  have same : slice (mbrSector boot block signature) (MbrLayout.entryAt slot + start) 1 =
      slice (block slot) start 1 := slice_mbrSector bootLength widths bounded inside
  have first := congrArg (fun items => items[0]?) same
  simp only [getElem?_slice] at first
  unfold byteAt
  rw [List.getD_eq_getElem?_getD, List.getD_eq_getElem?_getD]
  exact congrArg (Option.getD · 0) (by simpa using first)

theorem u32At_mbrSector (inside : start + 4 ≤ MbrLayout.entrySize) :
    u32At (mbrSector boot block signature) (MbrLayout.entryAt slot + start) =
      u32At (block slot) start := by
  unfold u32At field
  rw [slice_mbrSector bootLength widths bounded inside]

end Parts

/-! ## Entries of partitions -/

/-- What the writer asks of a partition. -/
structure Partition.FitsMbr (p : Partition) (totalBytes : Nat) : Prop where
  kind : ∃ typeByte active, p.kind = .mbr typeByte active
  length_pos : 0 < p.length.toNat
  start_aligned : p.start.toNat % 512 = 0
  length_aligned : p.length.toNat % 512 = 0
  first_pos : 0 < p.start.toNat / 512
  first_lt : p.start.toNat / 512 < 2 ^ 32
  sectors_lt : p.length.toNat / 512 < 2 ^ 32
  end_le : p.start.toNat + p.length.toNat ≤ totalBytes

theorem PartitionKind.isMbr_eq_false {kind : PartitionKind} :
    ¬ kind.isMbr = false ↔ ∃ typeByte active, kind = .mbr typeByte active := by
  cases kind <;> simp [PartitionKind.isMbr]

theorem validateMbrPartition_eq_ok {p : Partition} {totalBytes : UInt64} {passed : Unit} :
    validateMbrPartition p totalBytes = .ok passed ↔ p.FitsMbr totalBytes.toNat := by
  have zero : p.length = 0 ↔ p.length.toNat = 0 := by
    rw [← UInt64.toNat_inj]
    rfl
  have one : (1 : UInt64).toNat = 1 := rfl
  have largest : mbrLbaMax.toNat = 2 ^ 32 - 1 := rfl
  have total := totalBytes.toNat_lt
  constructor
  · intro accepted
    obtain ⟨kind, accepted⟩ := refuseIf_bind_eq_ok.mp accepted
    obtain ⟨_, accepted⟩ := refuseIf_bind_eq_ok.mp accepted
    obtain ⟨aligned, accepted⟩ := refuseIf_bind_eq_ok.mp accepted
    obtain ⟨⟨first, last⟩, span, accepted⟩ := bind_eq_ok.mp accepted
    obtain ⟨narrow, accepted⟩ := refuseIf_bind_eq_ok.mp accepted
    obtain ⟨positive, accepted⟩ := refuseIf_bind_eq_ok.mp accepted
    obtain ⟨stop, sum, accepted⟩ := bind_eq_ok.mp accepted
    have inside := refuseIf_eq_ok.mp accepted
    obtain ⟨lengthPos, bounded, firstEq, lastEq⟩ := Partition.sectorSpan_eq_ok.mp span
    have stopValue := checkedAdd_eq_some.mp (orRefuse_eq_ok.mp sum)
    simp only [UInt64.lt_iff_toNat_lt, UInt64.toNat_div, toNat_sectorSize] at narrow positive inside
    rw [not_or, not_not, not_not, aligned_iff, aligned_iff] at aligned
    exact ⟨PartitionKind.isMbr_eq_false.mp kind, lengthPos, aligned.1, aligned.2, by omega,
      by omega, by omega, by omega⟩
  · rintro ⟨kind, lengthPos, startAligned, lengthAligned, firstPos, firstLt, sectorsLt, endLe⟩
    obtain ⟨first, last, span, firstEq, lastEq⟩ :=
      Partition.exists_sectorSpan lengthPos (by omega)
    have sum : checkedAdd p.start p.length = some (p.start + p.length) :=
      checkedAdd_eq_some.mpr (toNat_add_of_lt (by omega))
    have stopValue : (p.start + p.length).toNat = p.start.toNat + p.length.toNat :=
      toNat_add_of_lt (by omega)
    have nonempty : ¬ p.length = 0 := by
      rw [zero]
      omega
    have aligned : ¬ (p.start % sectorSize ≠ 0 ∨ p.length % sectorSize ≠ 0) := by
      rw [not_or, not_not, not_not, aligned_iff, aligned_iff]
      exact ⟨startAligned, lengthAligned⟩
    have narrow : ¬ (mbrLbaMax < first ∨ mbrLbaMax < p.length / sectorSize) := by
      simp only [UInt64.lt_iff_toNat_lt, UInt64.toNat_div, toNat_sectorSize]
      omega
    have positive : ¬ first < 1 := by
      rw [UInt64.lt_iff_toNat_lt]
      omega
    have inside : ¬ totalBytes < p.start + p.length := by
      rw [UInt64.lt_iff_toNat_lt]
      omega
    simp only [validateMbrPartition, refuseIf_of_not (PartitionKind.isMbr_eq_false.mpr kind),
      refuseIf_of_not nonempty, refuseIf_of_not aligned, span, ok_bind, refuseIf_of_not narrow,
      refuseIf_of_not positive, sum, orRefuse, refuseIf_of_not inside]

/-- The CHS addresses of the entry that was in the slot, when it described the sectors
of the partition. -/
def keptChs (old : List UInt8) (p : Partition) : List (Write UInt8) :=
  if byteAt old MbrLayout.typeByte ≠ MbrTypes.empty ∧
      slice old MbrLayout.startLba 4 = u32Bytes (p.start / sectorSize).toUInt32 ∧
      slice old MbrLayout.sectorCount 4 = u32Bytes (p.length / sectorSize).toUInt32 then
    [⟨1, slice old 1 3⟩, ⟨5, slice old 5 3⟩]
  else []

/-- The fields a partition's entry is made of, over the entry that was in its slot. -/
def mbrEntryWrites (old : List UInt8) (p : Partition) (fields : UInt8 × Bool) :
    List (Write UInt8) :=
  [⟨0, [if fields.2 then statusActive else 0x00]⟩] ++ keptChs old p ++
    [⟨MbrLayout.typeByte, [fields.1]⟩,
      ⟨MbrLayout.startLba, u32Bytes (p.start / sectorSize).toUInt32⟩,
      ⟨MbrLayout.sectorCount, u32Bytes (p.length / sectorSize).toUInt32⟩]

/-- An empty entry. -/
def emptyEntry : List UInt8 := List.replicate MbrLayout.entrySize 0

/-- The entry of a partition. -/
def mbrImage (existing : List UInt8) (seat : Partition × UInt32) : List UInt8 :=
  match seat.1.kind.mbrFields with
  | some fields =>
      applyAll (mbrEntryWrites (slice existing (MbrLayout.entryAt seat.2.toNat)
        MbrLayout.entrySize) seat.1 fields) emptyEntry
  | none => emptyEntry

section Images

variable {old : List UInt8} {p : Partition} {fields : UInt8 × Bool}

theorem keptChs_cases (old : List UInt8) (p : Partition) :
    keptChs old p = [⟨1, slice old 1 3⟩, ⟨5, slice old 5 3⟩] ∨ keptChs old p = [] := by
  unfold keptChs
  split
  · exact .inl rfl
  · exact .inr rfl

theorem length_chs_le (old : List UInt8) (start : Nat) : (slice old start 3).length ≤ 3 := by
  simp only [slice, List.length_take]
  omega

theorem mbrEntryWrites_inside :
    ∀ write ∈ mbrEntryWrites old p fields, write.Inside MbrLayout.entrySize := by
  have front := length_chs_le old 1
  have back := length_chs_le old 5
  unfold mbrEntryWrites
  rcases keptChs_cases old p with kept | cleared
  · simp [kept, Write.Inside, MbrLayout.entrySize, MbrLayout.typeByte, MbrLayout.startLba,
      MbrLayout.sectorCount]
    omega
  · simp [cleared, Write.Inside, MbrLayout.entrySize, MbrLayout.typeByte, MbrLayout.startLba,
      MbrLayout.sectorCount]

theorem pairwise_mbrEntryWrites : (mbrEntryWrites old p fields).Pairwise Write.Disjoint := by
  have front := length_chs_le old 1
  have back := length_chs_le old 5
  unfold mbrEntryWrites
  rcases keptChs_cases old p with kept | cleared
  · simp [kept, Write.Disjoint, MbrLayout.typeByte, MbrLayout.startLba, MbrLayout.sectorCount]
    omega
  · simp [cleared, Write.Disjoint, MbrLayout.typeByte, MbrLayout.startLba,
      MbrLayout.sectorCount]

theorem length_mbrImage (existing : List UInt8) (seat : Partition × UInt32) :
    (mbrImage existing seat).length = MbrLayout.entrySize := by
  have width : emptyEntry.length = MbrLayout.entrySize := List.length_replicate
  unfold mbrImage
  split
  · rw [length_applyAll (by rw [width]; exact mbrEntryWrites_inside), width]
  · exact width

/-- Each field of an entry can be read back. -/
theorem slice_mbrEntryWrites (write : Write UInt8)
    (member : write ∈ mbrEntryWrites old p fields) :
    slice (applyAll (mbrEntryWrites old p fields) emptyEntry) write.offset write.data.length =
      write.data := by
  have width : emptyEntry.length = MbrLayout.entrySize := List.length_replicate
  exact slice_applyAll_of_mem (by rw [width]; exact mbrEntryWrites_inside)
    pairwise_mbrEntryWrites member

end Images

theorem byteAt_of_slice {bytes : List UInt8} {offset : Nat} {value : UInt8}
    (stored : slice bytes offset 1 = [value]) : byteAt bytes offset = value := by
  have first := congrArg (fun items => items[0]?) stored
  simp only [getElem?_slice] at first
  unfold byteAt
  rw [List.getD_eq_getElem?_getD]
  simp at first
  rw [first]
  rfl

/-- The four fields the reader looks at. -/
theorem mbrImage_fields (existing : List UInt8) {seat : Partition × UInt32} {typeByte : UInt8}
    {active : Bool} (kind : seat.1.kind = .mbr typeByte active) :
    byteAt (mbrImage existing seat) 0 = (if active then statusActive else 0x00) ∧
      byteAt (mbrImage existing seat) MbrLayout.typeByte = typeByte ∧
      u32At (mbrImage existing seat) MbrLayout.startLba =
        (seat.1.start / sectorSize).toUInt32 ∧
      u32At (mbrImage existing seat) MbrLayout.sectorCount =
        (seat.1.length / sectorSize).toUInt32 := by
  have fields : seat.1.kind.mbrFields = some (typeByte, active) := by
    rw [kind]
    rfl
  unfold mbrImage
  rw [fields]
  simp only
  refine ⟨byteAt_of_slice ?_, byteAt_of_slice ?_, u32At_of_slice ?_, u32At_of_slice ?_⟩
  · exact slice_mbrEntryWrites ⟨0, [if active then statusActive else 0x00]⟩
      (by simp [mbrEntryWrites])
  · exact slice_mbrEntryWrites ⟨MbrLayout.typeByte, [typeByte]⟩ (by simp [mbrEntryWrites])
  · exact slice_mbrEntryWrites
      ⟨MbrLayout.startLba, u32Bytes (seat.1.start / sectorSize).toUInt32⟩
      (by simp [mbrEntryWrites])
  · exact slice_mbrEntryWrites
      ⟨MbrLayout.sectorCount, u32Bytes (seat.1.length / sectorSize).toUInt32⟩
      (by simp [mbrEntryWrites])

/-! ## Building the sector -/

/-- The slot of a reserved entry, as an index. -/
def reservedIndex (r : ReservedEntry) : Nat := r.slot.toNat

/-- What slot `i` holds once the reserved entries are back. -/
def keptBlock (reserved : List ReservedEntry) (i : Nat) : List UInt8 :=
  ((itemAt reservedIndex reserved i).map fun r => r.entry.bytes).getD emptyEntry

/-- What slot `i` holds in the end. -/
def tableBlock (existing : List UInt8) (reserved : List ReservedEntry)
    (seats : List (Partition × UInt32)) (i : Nat) : List UInt8 :=
  ((itemAt seatIndex seats i).map (mbrImage existing)).getD (keptBlock reserved i)

/-- Everybody sits in a slot of the table, and nobody shares one. -/
structure MbrSeating (reserved : List ReservedEntry) (seats : List (Partition × UInt32)) :
    Prop where
  distinct : (seats.map seatIndex).Nodup
  reserved_distinct : (reserved.map reservedIndex).Nodup
  apart : ∀ seat ∈ seats, ∀ r ∈ reserved, reservedIndex r ≠ seatIndex seat
  bounded : ∀ seat ∈ seats, seatIndex seat < MbrLayout.entryCount
  reserved_bounded : ∀ r ∈ reserved, reservedIndex r < MbrLayout.entryCount
  kinds : ∀ seat ∈ seats, ∃ typeByte active, seat.1.kind = .mbr typeByte active

theorem length_emptyEntry : emptyEntry.length = MbrLayout.entrySize := List.length_replicate

theorem length_keptBlock (reserved : List ReservedEntry) : EntryWidths (keptBlock reserved) := by
  intro i _
  unfold keptBlock
  cases itemAt reservedIndex reserved i with
  | none => exact length_emptyEntry
  | some r => exact r.entry.length_bytes

theorem length_tableBlock (existing : List UInt8) (reserved : List ReservedEntry)
    (seats : List (Partition × UInt32)) : EntryWidths (tableBlock existing reserved seats) := by
  intro i bound
  unfold tableBlock
  cases itemAt seatIndex seats i with
  | none => exact length_keptBlock reserved i bound
  | some seat => exact length_mbrImage existing seat

/-- One round of the writer's loop is the writes of the entry. -/
theorem writeMbrEntry_eq_applyAll {existing sector : List UInt8} {seat : Partition × UInt32}
    {fields : UInt8 × Bool} (own : seat.1.kind.mbrFields = some fields) :
    writeMbrEntry existing sector seat =
      .ok (applyAll ((mbrEntryWrites (slice existing (MbrLayout.entryAt seat.2.toNat)
        MbrLayout.entrySize) seat.1 fields).map
          (Write.shift (MbrLayout.entryAt seat.2.toNat))) sector) := by
  simp only [writeMbrEntry, own, orRefuse, ok_bind, pure_eq_ok, mbrEntryWrites, keptChs]
  split
  · rfl
  · rfl

section Building

variable {boot signature : List UInt8} {block : Nat → List UInt8}
  (bootLength : boot.length = MbrLayout.tableStart) (widths : EntryWidths block)

include bootLength widths

theorem foldl_keepReserved {reserved : List ReservedEntry}
    (bounded : ∀ r ∈ reserved, reservedIndex r < MbrLayout.entryCount) :
    reserved.foldl keepReserved (mbrSector boot block signature) =
      mbrSector boot (reserved.foldl
        (fun f r => Function.update f (reservedIndex r) r.entry.bytes) block) signature := by
  induction reserved generalizing block with
  | nil => rfl
  | cons r reserved ih =>
      have width := r.entry.length_bytes
      have bound := bounded r (by simp)
      have whole : splice (block (reservedIndex r)) 0 r.entry.bytes = r.entry.bytes := by
        rw [splice_zero, width, List.drop_eq_nil_of_le (by rw [widths _ bound]; decide),
          List.append_nil]
      have kept : keepReserved (mbrSector boot block signature) r =
          mbrSector boot (Function.update block (reservedIndex r) r.entry.bytes) signature := by
        have spliced : splice (mbrSector boot block signature)
            (MbrLayout.entryAt (reservedIndex r) + 0) r.entry.bytes = _ :=
          splice_mbrSector bootLength widths bound (by rw [width]; decide)
        rw [whole] at spliced
        exact spliced
      rw [List.foldl_cons, List.foldl_cons, kept, ih (widths.update _ width)
        (fun other member => bounded other (by simp [member]))]

/-- Signing a sector changes its last two bytes. -/
theorem splice_signature (two : signature.length = 2) :
    splice (mbrSector boot block signature) 510 [0x55, 0xAA] =
      mbrSector boot block [0x55, 0xAA] := by
  have headLength : (boot ++ blocks block MbrLayout.entryCount).length = 510 := by
    rw [List.length_append, bootLength, length_entries widths]
    rfl
  unfold mbrSector
  rw [splice_append_right (by rw [headLength]), headLength, splice_zero,
    List.drop_eq_nil_of_le (by rw [two]; decide), List.append_nil]

/-- One round of the writer's loop, on a slot that is still empty. -/
theorem writeMbrEntry_mbrSector (existing : List UInt8) {seat : Partition × UInt32}
    (bounded : seatIndex seat < MbrLayout.entryCount)
    (kind : ∃ typeByte active, seat.1.kind = .mbr typeByte active)
    (empty : block (seatIndex seat) = emptyEntry) :
    writeMbrEntry existing (mbrSector boot block signature) seat =
      .ok (mbrSector boot
        (Function.update block (seatIndex seat) (mbrImage existing seat)) signature) := by
  obtain ⟨typeByte, active, kind⟩ := kind
  have fields : seat.1.kind.mbrFields = some (typeByte, active) := by
    rw [kind]
    rfl
  have laid : applyAll ((mbrEntryWrites (slice existing (MbrLayout.entryAt seat.2.toNat)
      MbrLayout.entrySize) seat.1 (typeByte, active)).map
        (Write.shift (MbrLayout.entryAt seat.2.toNat))) (mbrSector boot block signature) = _ :=
    applyAll_mbrSector bootLength widths bounded mbrEntryWrites_inside
  rw [writeMbrEntry_eq_applyAll fields, laid, empty]
  unfold mbrImage
  rw [fields]

theorem foldlM_writeMbrEntry (existing : List UInt8) {seats : List (Partition × UInt32)}
    (distinct : (seats.map seatIndex).Nodup)
    (bounded : ∀ seat ∈ seats, seatIndex seat < MbrLayout.entryCount)
    (kinds : ∀ seat ∈ seats, ∃ typeByte active, seat.1.kind = .mbr typeByte active)
    (empty : ∀ seat ∈ seats, block (seatIndex seat) = emptyEntry) :
    seats.foldlM (writeMbrEntry existing) (mbrSector boot block signature) =
      .ok (mbrSector boot (seats.foldl
        (fun f seat => Function.update f (seatIndex seat) (mbrImage existing seat)) block)
        signature) := by
  induction seats generalizing block with
  | nil => rfl
  | cons seat rest ih =>
      rw [List.map_cons, List.nodup_cons] at distinct
      rw [List.foldlM_cons, List.foldl_cons, writeMbrEntry_mbrSector bootLength widths existing
        (bounded seat (by simp)) (kinds seat (by simp)) (empty seat (by simp)), ok_bind,
        ih (widths.update _ (length_mbrImage existing seat)) distinct.2
          (fun other member => bounded other (by simp [member]))
          (fun other member => kinds other (by simp [member]))]
      intro other member
      have unequal : seatIndex other ≠ seatIndex seat := fun same =>
        distinct.1 (same ▸ List.mem_map_of_mem member)
      rw [Function.update_of_ne unequal, empty other (by simp [member])]

end Building

theorem buildMbr_eq {existing : List UInt8} (width : existing.length = 512)
    {reserved : List ReservedEntry} {seats : List (Partition × UInt32)}
    (seating : MbrSeating reserved seats) :
    buildMbr existing reserved seats =
      .ok (mbrSector (slice existing 0 MbrLayout.tableStart)
        (tableBlock existing reserved seats) [0x55, 0xAA]) := by
  have bootLength : (slice existing 0 MbrLayout.tableStart).length = MbrLayout.tableStart :=
    length_slice (by rw [width]; decide)
  have cleared : splice existing MbrLayout.tableStart
      (List.replicate (MbrLayout.entryCount * MbrLayout.entrySize) 0) =
      mbrSector (slice existing 0 MbrLayout.tableStart) (fun _ => emptyEntry)
        (existing.drop 510) := by
    unfold splice mbrSector emptyEntry
    rw [blocks_replicate, List.length_replicate]
    rfl
  have kept : reserved.foldl (fun f r => Function.update f (reservedIndex r) r.entry.bytes)
      (fun _ => emptyEntry) = keptBlock reserved :=
    foldl_update _ _ seating.reserved_distinct
  have seated : seats.foldl
      (fun f seat => Function.update f (seatIndex seat) (mbrImage existing seat))
      (keptBlock reserved) = tableBlock existing reserved seats :=
    foldl_update _ _ seating.distinct
  have empty : ∀ seat ∈ seats, keptBlock reserved (seatIndex seat) = emptyEntry := by
    intro seat member
    unfold keptBlock
    rw [itemAt_eq_none.mpr (seating.apart seat member)]
    rfl
  unfold buildMbr
  simp only [cleared]
  rw [foldl_keepReserved bootLength (fun _ _ => length_emptyEntry) seating.reserved_bounded, kept,
    foldlM_writeMbrEntry bootLength (length_keptBlock reserved) existing seating.distinct
      seating.bounded seating.kinds empty, seated, ok_bind,
    splice_signature bootLength (length_tableBlock _ _ _) (by rw [List.length_drop, width])]
  rfl

/-! ## Reading the sector -/

/-- A volume's type byte: neither empty nor a container nor a GPT marker. -/
def IsVolumeType (typeByte : UInt8) : Prop :=
  typeByte ≠ MbrTypes.empty ∧ entryRole typeByte = .volume

instance (typeByte : UInt8) : Decidable (IsVolumeType typeByte) :=
  inferInstanceAs (Decidable (_ ∧ _))

/-- The partition has the type of a volume. -/
def Partition.IsMbrVolume (p : Partition) : Prop :=
  ∃ fields ∈ p.kind.mbrFields, IsVolumeType fields.1

instance (p : Partition) : Decidable p.IsMbrVolume :=
  decidable_of_iff (p.kind.mbrFields.any fun fields => IsVolumeType fields.1) (by
    rw [Option.any_eq_true]
    simp [Partition.IsMbrVolume])

theorem Partition.isMbrVolume_iff {p : Partition} {typeByte : UInt8} {active : Bool}
    (kind : p.kind = .mbr typeByte active) : p.IsMbrVolume ↔ IsVolumeType typeByte := by
  simp [Partition.IsMbrVolume, kind, PartitionKind.mbrFields]

/-- An entry that the list of volumes leaves out. -/
def ReservedEntry.Hidden (r : ReservedEntry) : Prop :=
  r.typeByte = MbrTypes.empty ∨ entryRole r.typeByte ≠ .volume ∨
    u32At r.entry.bytes MbrLayout.sectorCount = 0

/-- An accepted partition as it is found again: an MBR keeps neither label nor UUID. -/
def storedMbr (p : Partition) (slot : UInt32) : Partition :=
  { p with
    label := none
    uuid := none
    slot := some slot
    issues := 0
    availableLength := p.length }

section Reading

variable {boot signature : List UInt8} {block : Nat → List UInt8}
  (bootLength : boot.length = MbrLayout.tableStart) (widths : EntryWidths block)
  {size : UInt64} {i : Nat} (bounded : i < MbrLayout.entryCount)

include bootLength widths bounded

theorem typeByteAt_mbrSector :
    typeByteAt (mbrSector boot block signature) i = byteAt (block i) MbrLayout.typeByte :=
  byteAt_mbrSector bootLength widths bounded (by decide)

theorem sectorCountAt_mbrSector :
    sectorCountAt (mbrSector boot block signature) i =
      u32At (block i) MbrLayout.sectorCount :=
  u32At_mbrSector bootLength widths bounded (by decide)

/-- A slot of the table is read from its own sixteen bytes. -/
theorem parseMbrEntry_mbrSector :
    parseMbrEntry (mbrSector boot block signature) size i =
      if byteAt (block i) MbrLayout.typeByte = MbrTypes.empty then none
      else if u32At (block i) MbrLayout.sectorCount = 0 then none
      else some {
        start := (u32At (block i) MbrLayout.startLba).toUInt64 * sectorSize
        length := (u32At (block i) MbrLayout.sectorCount).toUInt64 * sectorSize
        kind := .mbr (byteAt (block i) MbrLayout.typeByte) (byteAt (block i) 0 &&& 0x80 != 0)
        label := none
        uuid := none
        slot := some (UInt32.ofNat i)
        issues := 0
        availableLength := availableOnDevice
          ((u32At (block i) MbrLayout.startLba).toUInt64 * sectorSize)
          ((u32At (block i) MbrLayout.sectorCount).toUInt64 * sectorSize) size } := by
  have status : byteAt (mbrSector boot block signature) (MbrLayout.entryAt i) =
      byteAt (block i) 0 :=
    byteAt_mbrSector bootLength widths bounded (show 0 < MbrLayout.entrySize by decide)
  have start : u32At (mbrSector boot block signature) (MbrLayout.entryAt i +
      MbrLayout.startLba) = u32At (block i) MbrLayout.startLba :=
    u32At_mbrSector bootLength widths bounded (by decide)
  simp only [parseMbrEntry, typeByteAt_mbrSector bootLength widths bounded,
    sectorCountAt_mbrSector bootLength widths bounded, status, start]

theorem parseMbrEntry_empty (empty : block i = emptyEntry) :
    parseMbrEntry (mbrSector boot block signature) size i = none := by
  rw [parseMbrEntry_mbrSector bootLength widths bounded, empty]
  exact if_pos (by decide)

/-- What is read from a reserved entry is no volume. -/
theorem filter_parseMbrEntry_hidden {r : ReservedEntry} (held : block i = r.entry.bytes)
    (hidden : r.Hidden) :
    (parseMbrEntry (mbrSector boot block signature) size i).filter isVolume = none := by
  rw [parseMbrEntry_mbrSector bootLength widths bounded, held]
  split
  · rfl
  next nonempty =>
    split
    · rfl
    next counted =>
      rcases hidden with empty | container | zero
      · exact absurd empty nonempty
      · have kind : entryRole (byteAt r.entry.bytes MbrLayout.typeByte) ≠ .volume := container
        simp [isVolume, kind]
      · exact absurd zero counted

end Reading

theorem toNat_toUInt32_div {value : UInt64} (narrow : value.toNat / 512 < 2 ^ 32) :
    (value / sectorSize).toUInt32.toUInt64.toNat = value.toNat / 512 := by
  rw [UInt32.toNat_toUInt64, UInt64.toNat_toUInt32, UInt64.toNat_div, toNat_sectorSize,
    Nat.mod_eq_of_lt narrow]

/-- A byte count of whole sectors survives the entry's 32-bit field. -/
theorem mbrField_mul {value : UInt64} (narrow : value.toNat / 512 < 2 ^ 32)
    (aligned : value.toNat % 512 = 0) :
    (value / sectorSize).toUInt32.toUInt64 * sectorSize = value := by
  have lba := toNat_toUInt32_div narrow
  rw [← UInt64.toNat_inj, toNat_lba_mul (by omega), lba]
  omega

/-- What is read from the entry of an accepted partition. -/
theorem parseMbrEntry_image {boot signature : List UInt8} {block : Nat → List UInt8}
    (bootLength : boot.length = MbrLayout.tableStart) (widths : EntryWidths block)
    {existing : List UInt8} {seat : Partition × UInt32}
    (bounded : seatIndex seat < MbrLayout.entryCount) {size : UInt64}
    (fits : seat.1.FitsMbr size.toNat)
    (held : block (seatIndex seat) = mbrImage existing seat) :
    (parseMbrEntry (mbrSector boot block signature) size (seatIndex seat)).filter isVolume =
      if seat.1.IsMbrVolume then some (storedMbr seat.1 seat.2) else none := by
  obtain ⟨typeByte, active, kind⟩ := fits.kind
  obtain ⟨status, type, start, sectors⟩ := mbrImage_fields existing kind
  have counted : (seat.1.length / sectorSize).toUInt32 ≠ 0 := by
    intro zero
    have value := toNat_toUInt32_div fits.sectors_lt
    rw [zero] at value
    have positive := fits.length_pos
    have aligned := fits.length_aligned
    change 0 = _ at value
    omega
  have flag : ((if active then statusActive else 0x00) &&& 0x80 != 0) = active := by
    cases active <;> decide
  rw [parseMbrEntry_mbrSector bootLength widths bounded, held, status, type, start, sectors,
    if_neg counted, flag, mbrField_mul fits.first_lt fits.start_aligned,
    mbrField_mul fits.sectors_lt fits.length_aligned, availableOnDevice_of_le fits.end_le]
  have slot : UInt32.ofNat (seatIndex seat) = seat.2 := UInt32.ofNat_toNat
  simp only [Partition.isMbrVolume_iff kind, IsVolumeType]
  by_cases empty : typeByte = MbrTypes.empty
  · simp [empty]
  · rw [if_neg empty, slot]
    simp [storedMbr, isVolume, kind, empty, Option.filter]

/-- The volumes among the seated partitions, in slot order. -/
def mbrVolumes (seats : List (Partition × UInt32)) : List Partition :=
  (byKey seatIndex MbrLayout.entryCount seats).filterMap fun seat =>
    if seat.1.IsMbrVolume then some (storedMbr seat.1 seat.2) else none

/-- The type bytes of the table by slot: the partitions' and the reserved entries'. -/
def occupantTypes (reserved : List ReservedEntry) (seats : List (Partition × UInt32)) :
    List (Nat × UInt8) :=
  seats.map (fun seat => (seatIndex seat, (seat.1.kind.mbrFields.map Prod.fst).getD 0)) ++
    reserved.map fun r => (reservedIndex r, r.typeByte)

section Built

variable {boot signature existing : List UInt8} {reserved : List ReservedEntry}
  {seats : List (Partition × UInt32)} (bootLength : boot.length = MbrLayout.tableStart)
  (seating : MbrSeating reserved seats)

include bootLength

theorem parseMbr_built {size : UInt64} (fits : ∀ seat ∈ seats, seat.1.FitsMbr size.toNat)
    (hidden : ∀ r ∈ reserved, r.Hidden) :
    parseMbr (mbrSector boot (tableBlock existing reserved seats) signature) size =
      mbrVolumes seats := by
  have widths := length_tableBlock existing reserved seats
  unfold parseMbr parseAllEntries mbrVolumes byKey
  rw [List.filter_filterMap, List.filterMap_filterMap]
  apply List.filterMap_congr
  intro i member
  have bounded := List.mem_range.mp member
  cases seated : itemAt seatIndex seats i with
  | some seat =>
      obtain ⟨present, rfl⟩ := key_of_itemAt seated
      have held : tableBlock existing reserved seats (seatIndex seat) =
          mbrImage existing seat := by
        rw [tableBlock, seated]
        rfl
      rw [parseMbrEntry_image bootLength widths bounded (fits seat present) held]
      rfl
  | none =>
      cases kept : itemAt reservedIndex reserved i with
      | some r =>
          obtain ⟨present, _⟩ := key_of_itemAt kept
          have held : tableBlock existing reserved seats i = r.entry.bytes := by
            rw [tableBlock, seated, keptBlock, kept]
            rfl
          rw [filter_parseMbrEntry_hidden bootLength widths bounded held (hidden r present)]
          rfl
      | none =>
          have held : tableBlock existing reserved seats i = emptyEntry := by
            rw [tableBlock, seated, keptBlock, kept]
            rfl
          rw [parseMbrEntry_empty bootLength widths bounded held]
          rfl

include seating

theorem typeByteAt_built {i : Nat} (bounded : i < MbrLayout.entryCount) :
    typeByteAt (mbrSector boot (tableBlock existing reserved seats) signature) i =
      ((itemAt Prod.fst (occupantTypes reserved seats) i).map Prod.snd).getD
        MbrTypes.empty := by
  rw [typeByteAt_mbrSector bootLength (length_tableBlock _ _ _) bounded, occupantTypes,
    itemAt_append, itemAt_map, itemAt_map, tableBlock]
  change byteAt (((itemAt seatIndex seats i).map _).getD _) _ =
    (Option.map Prod.snd (((itemAt seatIndex seats i).map _).or
      ((itemAt reservedIndex reserved i).map _))).getD _
  cases seated : itemAt seatIndex seats i with
  | some seat =>
      obtain ⟨typeByte, active, kind⟩ := seating.kinds seat (key_of_itemAt seated).1
      simp [(mbrImage_fields existing kind).2.1, kind, PartitionKind.mbrFields]
  | none =>
      unfold keptBlock
      cases itemAt reservedIndex reserved i with
      | some r => rfl
      | none => rfl

omit bootLength in
theorem occupantTypes_distinct : ((occupantTypes reserved seats).map Prod.fst).Nodup := by
  unfold occupantTypes
  rw [List.map_append, List.map_map, List.map_map, List.nodup_append]
  refine ⟨seating.distinct, seating.reserved_distinct, ?_⟩
  rintro slot first _ second rfl
  obtain ⟨seat, member, rfl⟩ := List.mem_map.mp first
  obtain ⟨r, present, same⟩ := List.mem_map.mp second
  exact seating.apart seat member r present same

omit bootLength in
theorem occupantTypes_bounded :
    ∀ occupant ∈ occupantTypes reserved seats, occupant.1 < MbrLayout.entryCount := by
  intro occupant member
  rcases List.mem_append.mp member with seated | kept
  · obtain ⟨seat, present, rfl⟩ := List.mem_map.mp seated
    exact seating.bounded seat present
  · obtain ⟨r, present, rfl⟩ := List.mem_map.mp kept
    exact seating.reserved_bounded r present

/-- The sector carries a GPT marker when an occupant of the table does. -/
theorem hasGptMarker_built :
    hasGptMarker (mbrSector boot (tableBlock existing reserved seats) signature) = true ↔
      ∃ occupant ∈ occupantTypes reserved seats, occupant.2 = MbrTypes.gptProtective := by
  unfold hasGptMarker
  simp only [List.any_eq_true, List.mem_range, beq_iff_eq]
  constructor
  · rintro ⟨i, bounded, marker⟩
    rw [typeByteAt_built bootLength seating bounded] at marker
    cases found : itemAt Prod.fst (occupantTypes reserved seats) i with
    | none =>
        rw [found] at marker
        exact absurd marker (by decide)
    | some occupant =>
        rw [found] at marker
        exact ⟨occupant, (key_of_itemAt found).1, marker⟩
  · rintro ⟨occupant, member, marker⟩
    have bounded := occupantTypes_bounded seating occupant member
    refine ⟨occupant.1, bounded, ?_⟩
    rw [typeByteAt_built bootLength seating bounded,
      itemAt_of_mem (occupantTypes_distinct seating) member]
    exact marker

/-- The non-empty type bytes of the sector are those of the occupants. -/
theorem nonemptyTypes_built
    (used : ∀ occupant ∈ occupantTypes reserved seats, occupant.2 ≠ MbrTypes.empty)
    (existing signature : List UInt8) :
    (((List.range MbrLayout.entryCount).map (typeByteAt
      (mbrSector boot (tableBlock existing reserved seats) signature))).filter
        (· != MbrTypes.empty)).Perm ((occupantTypes reserved seats).map Prod.snd) := by
  have read : ((List.range MbrLayout.entryCount).map (typeByteAt
      (mbrSector boot (tableBlock existing reserved seats) signature))).filter
        (· != MbrTypes.empty) =
      (byKey Prod.fst MbrLayout.entryCount (occupantTypes reserved seats)).map Prod.snd := by
    rw [byKey, List.map_filterMap, ← List.filterMap_eq_map, List.filter_filterMap]
    apply List.filterMap_congr
    intro i member
    have bounded := List.mem_range.mp member
    simp only [Function.comp_apply]
    rw [typeByteAt_built bootLength seating bounded]
    cases found : itemAt Prod.fst (occupantTypes reserved seats) i with
    | none => rfl
    | some occupant => simp [Option.filter, used occupant (key_of_itemAt found).1]
  rw [read]
  exact (byKey_perm (occupantTypes_distinct seating) (occupantTypes_bounded seating)).map _

omit bootLength seating in
theorem isProtective_eq_true {lba0 : List UInt8} :
    isProtective lba0 = true ↔
      ((List.range MbrLayout.entryCount).map (typeByteAt lba0)).filter
        (· != MbrTypes.empty) = [MbrTypes.gptProtective] := by
  simp only [isProtective, Bool.and_eq_true, beq_iff_eq]
  constructor
  · rintro ⟨single, marker⟩
    obtain ⟨typeByte, only⟩ := List.length_eq_one_iff.mp single
    rw [only] at marker ⊢
    simpa using marker
  · intro only
    rw [only]
    decide

/-- The sector is a protective MBR when its only occupant is a GPT marker. -/
theorem isProtective_built
    (used : ∀ occupant ∈ occupantTypes reserved seats, occupant.2 ≠ MbrTypes.empty) :
    isProtective (mbrSector boot (tableBlock existing reserved seats) signature) = true ↔
      (occupantTypes reserved seats).map Prod.snd = [MbrTypes.gptProtective] := by
  rw [isProtective_eq_true]
  have perm := nonemptyTypes_built bootLength seating used existing signature
  constructor
  · intro single
    rw [single] at perm
    exact List.perm_singleton.mp perm.symm
  · intro single
    rw [single] at perm
    exact List.perm_singleton.mp perm

end Built

end DiskPartitions
