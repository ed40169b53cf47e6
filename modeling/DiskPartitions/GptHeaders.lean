import DiskPartitions.GptRegions

/-!
# Header sectors

A header is a record of fields over a zeroed sector, checksummed with its own
checksum field zeroed.  The sector the writer builds parses to the values it
was built from.
-/

namespace DiskPartitions

open Slices LittleEndian CheckedWords Refusals WriteJournal

section Fields

variable (myLba alternateLba entryLba : UInt64) (usable : UInt64 × UInt64) (diskGuid : Guid)
  (entryArrayCrc : UInt32) (g : GptGeometry)

/-- The fields of a header, its own checksum apart. -/
def headerWrites : List (Write UInt8) :=
  [⟨HeaderOffsets.signature, gptSignature⟩, ⟨HeaderOffsets.revision, u32Bytes 0x00010000⟩,
    ⟨HeaderOffsets.headerSize, u32Bytes GptLayout.headerSize⟩,
    ⟨HeaderOffsets.myLba, u64Bytes myLba⟩, ⟨HeaderOffsets.alternateLba, u64Bytes alternateLba⟩,
    ⟨HeaderOffsets.firstUsableLba, u64Bytes usable.1⟩,
    ⟨HeaderOffsets.lastUsableLba, u64Bytes usable.2⟩,
    ⟨HeaderOffsets.diskGuid, diskGuid.bytes⟩,
    ⟨HeaderOffsets.partitionEntryLba, u64Bytes entryLba⟩,
    ⟨HeaderOffsets.numPartitionEntries, u32Bytes g.numEntries⟩,
    ⟨HeaderOffsets.partitionEntrySize, u32Bytes g.entrySize⟩,
    ⟨HeaderOffsets.partitionEntryArrayCrc32, u32Bytes entryArrayCrc⟩]

theorem headerBody_eq_applyAll :
    headerBody myLba alternateLba entryLba usable diskGuid entryArrayCrc g =
      applyAll (headerWrites myLba alternateLba entryLba usable diskGuid entryArrayCrc g)
        (List.replicate 512 0) := rfl

theorem headerWrites_inside :
    ∀ write ∈ headerWrites myLba alternateLba entryLba usable diskGuid entryArrayCrc g,
      write.Inside 92 := by
  simp [headerWrites, Write.Inside, HeaderOffsets.signature, HeaderOffsets.revision,
    HeaderOffsets.headerSize, HeaderOffsets.myLba, HeaderOffsets.alternateLba,
    HeaderOffsets.firstUsableLba, HeaderOffsets.lastUsableLba, HeaderOffsets.diskGuid,
    HeaderOffsets.partitionEntryLba, HeaderOffsets.numPartitionEntries,
    HeaderOffsets.partitionEntrySize, HeaderOffsets.partitionEntryArrayCrc32,
    diskGuid.length_bytes, gptSignature]

theorem pairwise_headerWrites :
    (headerWrites myLba alternateLba entryLba usable diskGuid entryArrayCrc g).Pairwise
      Write.Disjoint := by
  simp [headerWrites, Write.Disjoint, HeaderOffsets.signature, HeaderOffsets.revision,
    HeaderOffsets.headerSize, HeaderOffsets.myLba, HeaderOffsets.alternateLba,
    HeaderOffsets.firstUsableLba, HeaderOffsets.lastUsableLba, HeaderOffsets.diskGuid,
    HeaderOffsets.partitionEntryLba, HeaderOffsets.numPartitionEntries,
    HeaderOffsets.partitionEntrySize, HeaderOffsets.partitionEntryArrayCrc32,
    diskGuid.length_bytes, gptSignature]

/-- No field meets the place of the header's own checksum. -/
theorem headerWrites_disjoint_crc :
    ∀ write ∈ headerWrites myLba alternateLba entryLba usable diskGuid entryArrayCrc g,
      HeaderOffsets.headerCrc32 + 4 ≤ write.offset ∨
        write.offset + write.data.length ≤ HeaderOffsets.headerCrc32 := by
  simp [headerWrites, HeaderOffsets.signature, HeaderOffsets.revision,
    HeaderOffsets.headerSize, HeaderOffsets.headerCrc32, HeaderOffsets.myLba,
    HeaderOffsets.alternateLba, HeaderOffsets.firstUsableLba, HeaderOffsets.lastUsableLba,
    HeaderOffsets.diskGuid, HeaderOffsets.partitionEntryLba, HeaderOffsets.numPartitionEntries,
    HeaderOffsets.partitionEntrySize, HeaderOffsets.partitionEntryArrayCrc32, gptSignature]

variable (crc32 : List UInt8 → UInt32)

/-- The values a built header parses to. -/
def builtHeader : Header where
  myLba := myLba
  alternateLba := alternateLba
  firstUsableLba := usable.1
  lastUsableLba := usable.2
  diskGuid := diskGuid
  partitionEntryLba := entryLba
  numPartitionEntries := g.numEntries
  partitionEntrySize := g.entrySize
  partitionEntryArrayCrc32 := entryArrayCrc
  headerCrc32 := crc32 (slice (headerBody myLba alternateLba entryLba usable diskGuid
    entryArrayCrc g) 0 92)
  headerSize := GptLayout.headerSize

end Fields

section Parsing

variable {myLba alternateLba entryLba : UInt64} {usable : UInt64 × UInt64} {diskGuid : Guid}
  {entryArrayCrc : UInt32} {g : GptGeometry} (crc32 : List UInt8 → UInt32)

theorem headerBody_inside :
    ∀ write ∈ headerWrites myLba alternateLba entryLba usable diskGuid entryArrayCrc g,
      write.Inside (List.replicate 512 (0 : UInt8)).length := by
  intro write member
  have within := headerWrites_inside myLba alternateLba entryLba usable diskGuid entryArrayCrc
    g write member
  unfold Write.Inside at within ⊢
  rw [List.length_replicate]
  omega

theorem length_headerBody :
    (headerBody myLba alternateLba entryLba usable diskGuid entryArrayCrc g).length = 512 := by
  rw [headerBody_eq_applyAll, length_applyAll headerBody_inside, List.length_replicate]

@[simp]
theorem length_buildHeader :
    (buildHeader crc32 myLba alternateLba entryLba usable diskGuid entryArrayCrc g).length =
      512 := by
  simp only [buildHeader]
  rw [length_splice, length_headerBody]
  rw [length_headerBody, length_u32Bytes, HeaderOffsets.headerCrc32]
  omega

/-- A field of the built sector holds what was written into it. -/
theorem slice_buildHeader (write : Write UInt8)
    (member : write ∈ headerWrites myLba alternateLba entryLba usable diskGuid entryArrayCrc g) :
    slice (buildHeader crc32 myLba alternateLba entryLba usable diskGuid entryArrayCrc g)
      write.offset write.data.length = write.data := by
  have apart := headerWrites_disjoint_crc myLba alternateLba entryLba usable diskGuid
    entryArrayCrc g write member
  simp only [buildHeader]
  rw [slice_splice_disjoint, headerBody_eq_applyAll,
    slice_applyAll_of_mem headerBody_inside (pairwise_headerWrites _ _ _ _ _ _ _) member]
  · rw [length_headerBody, length_u32Bytes, HeaderOffsets.headerCrc32]
    omega
  · rw [length_u32Bytes]
    omega

theorem slice_headerBody_crc :
    slice (headerBody myLba alternateLba entryLba usable diskGuid entryArrayCrc g)
      HeaderOffsets.headerCrc32 4 = List.replicate 4 0 := by
  rw [headerBody_eq_applyAll, slice_applyAll_disjoint headerBody_inside
    (headerWrites_disjoint_crc _ _ _ _ _ _ _), slice_replicate]
  decide

/-- Zeroing the checksum field of a built header gives the bytes it was computed over. -/
theorem headerForCrc_buildHeader :
    splice (slice (buildHeader crc32 myLba alternateLba entryLba usable diskGuid entryArrayCrc g)
        0 92) HeaderOffsets.headerCrc32 (List.replicate 4 0) =
      slice (headerBody myLba alternateLba entryLba usable diskGuid entryArrayCrc g) 0 92 := by
  have width : (headerBody myLba alternateLba entryLba usable diskGuid entryArrayCrc g).length =
      512 := length_headerBody
  have inner : (slice (headerBody myLba alternateLba entryLba usable diskGuid entryArrayCrc g)
      0 92).length = 92 := length_slice (by omega)
  have zeros : List.replicate 4 0 = slice (slice (headerBody myLba alternateLba entryLba usable
      diskGuid entryArrayCrc g) 0 92) HeaderOffsets.headerCrc32 4 := by
    rw [slice_slice (by decide), Nat.zero_add, slice_headerBody_crc]
  simp only [buildHeader]
  rw [slice_splice_around (by omega) (by decide) (by simp [HeaderOffsets.headerCrc32])]
  rw [Nat.sub_zero, splice_splice_self (by rw [inner]; simp [HeaderOffsets.headerCrc32]) (by simp),
    zeros, splice_slice_self (by rw [inner]; decide)]

theorem stored_headerCrc :
    u32At (buildHeader crc32 myLba alternateLba entryLba usable diskGuid entryArrayCrc g)
      HeaderOffsets.headerCrc32 =
      crc32 (slice (headerBody myLba alternateLba entryLba usable diskGuid entryArrayCrc g)
        0 92) := by
  apply u32At_of_slice
  have width : (u32Bytes (crc32 (slice (headerBody myLba alternateLba entryLba usable diskGuid
      entryArrayCrc g) 0 92))).length = 4 := length_u32Bytes _
  simp only [buildHeader]
  conv_lhs => rw [← width]
  exact slice_splice_self (by rw [length_headerBody, length_u32Bytes]; decide)

/-- The sector the writer builds parses to the values it was built from. -/
theorem parseHeader_buildHeader (shape : g.WellShaped) :
    parseHeader crc32 (buildHeader crc32 myLba alternateLba entryLba usable diskGuid
        entryArrayCrc g) =
      .ok (builtHeader myLba alternateLba entryLba usable diskGuid entryArrayCrc g crc32) := by
  have read : ∀ write ∈ headerWrites myLba alternateLba entryLba usable diskGuid
      entryArrayCrc g, slice (buildHeader crc32 myLba alternateLba entryLba usable diskGuid
        entryArrayCrc g) write.offset write.data.length = write.data :=
    fun write member => slice_buildHeader crc32 write member
  simp only [headerWrites, List.forall_mem_cons, length_u32Bytes, length_u64Bytes,
    diskGuid.length_bytes] at read
  obtain ⟨signature, revision, size, my, alternate, first, last, guid, entries, count, width,
    crc, _⟩ := read
  have size92 : GptLayout.headerSize.toNat = 92 := rfl
  have entrySizeRange : ¬ ¬ (128 ≤ g.entrySize ∧ g.entrySize ≤ 4096) := by
    rw [not_not]
    exact ⟨shape.size_ge, shape.size_le⟩
  have entryCount : ¬ 4096 < g.numEntries := by
    rw [UInt32.lt_iff_toNat_lt]
    exact Nat.not_lt.mpr shape.entries_le
  have long : ¬ (512 < 512) := by decide
  have known : ¬ (gptSignature ≠ gptSignature) := by simp
  have sized : ¬ ¬ (92 ≤ 92 ∧ 92 ≤ 512) := by decide
  have revised : ¬ ((0x00010000 : UInt32) >>> 16 ≠ 1) := by decide
  have entrySize : ¬ ¬ (isEntrySize g.entrySize = true) := by
    rw [not_not]
    exact shape.size_isEntrySize
  have checked : ∀ value : UInt32, ¬ (value ≠ value) := by simp
  have eight : gptSignature.length = 8 := rfl
  rw [eight] at signature
  simp only [parseHeader, parseHeaderBlock, length_buildHeader, signature, u32At_of_slice size,
    size92, headerForCrc_buildHeader, stored_headerCrc, u32At_of_slice revision,
    u32At_of_slice width, u32At_of_slice count, u32At_of_slice crc, u64At_of_slice my,
    u64At_of_slice alternate, u64At_of_slice first, u64At_of_slice last,
    u64At_of_slice entries, bytes16At_of_slice guid, refuseIf_of_not long,
    refuseIf_of_not known, refuseIf_of_not sized, refuseIf_of_not (checked _),
    refuseIf_of_not revised, refuseIf_of_not entrySizeRange, refuseIf_of_not entrySize,
    refuseIf_of_not entryCount, ok_bind]
  rfl

end Parsing

end DiskPartitions
