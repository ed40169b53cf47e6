import DiskPartitions.GptRoundTrip
import DiskPartitions.MbrEditing

/-!
# A new MBR on a disk that held another table

The MBR writer replaces LBA 0 and nothing else, and a probe looks at LBA 1
first.  So a new MBR is found exactly when the disk carries no GPT signature
there; on a disk with a GPT the old table stays in force.
-/

namespace DiskPartitions

open Slices LittleEndian Refusals WriteJournal KeyOrder FallibleState

section NewTables

variable (crc32 : List UInt8 → UInt32) {set : PartitionSet} {dev after : ByteDevice}

/-- A table of volumes alone carries no GPT marker and is no protective MBR. -/
theorem no_marker_of_volumes {plan : MbrPlan}
    (accepted : plan.Accepted dev set.partitions [])
    (volumes : ∀ p ∈ set.partitions, p.IsMbrVolume) :
    hasGptMarker plan.sector = false ∧ isProtective plan.sector = false := by
  have seatVolumes : ∀ seat ∈ set.partitions.zip plan.slots, seat.1.IsMbrVolume :=
    fun seat member => volumes seat.1 (List.of_mem_zip member).1
  have types : ∀ occupant ∈ occupantTypes [] (set.partitions.zip plan.slots),
      IsVolumeType occupant.2 := by
    intro occupant member
    rw [occupantTypes, List.map_nil, List.append_nil] at member
    obtain ⟨seat, present, rfl⟩ := List.mem_map.mp member
    exact seat_type_ne seatVolumes present
  rw [accepted.sector_eq]
  constructor
  · rw [← Bool.not_eq_true, hasGptMarker_built (length_boot accepted) accepted.seating]
    rintro ⟨occupant, member, marker⟩
    exact (types occupant member).ne_marker marker
  · rw [← Bool.not_eq_true, isProtective_built (length_boot accepted) accepted.seating
      fun occupant member => (types occupant member).1]
    intro single
    obtain ⟨occupant, member, marker⟩ := List.mem_map.mp
      (show MbrTypes.gptProtective ∈ _ by rw [single]; simp)
    exact (types occupant member).ne_marker marker

/-- Every probe of a new MBR of volumes finds them, when no GPT signature comes first. -/
theorem probeInner_new_mbr (fresh : set.reserved = [])
    (volumes : ∀ p ∈ set.partitions, p.IsMbrVolume) (unsigned : ¬ dev.HasGptSignature)
    {plan : MbrPlan} (accepted : plan.Accepted dev set.partitions set.reserved)
    (consultBackup : Bool) :
    probeInner crc32 (plan.committed accepted) consultBackup =
      .ok (.mbr, mbrVolumes (set.partitions.zip plan.slots), .mbr) := by
  have plain : plan.Accepted dev set.partitions [] := by
    rw [← fresh]
    exact accepted
  obtain ⟨noMarker, table⟩ := no_marker_of_volumes plain volumes
  rw [probeInner_mbrCommitted accepted crc32 consultBackup unsigned]
  refine probeMbr_mbrCommitted accepted crc32 consultBackup ?_ ?_ table
  · rw [fresh]
    simp
  · intro marker
    rw [noMarker] at marker
    cases marker

/-- A new MBR of volumes supersedes what the disk held exactly when LBA 1 does not
start with the GPT signature. -/
theorem new_mbr_supersedes_iff (mbr : set.tableKind = .mbr) (fresh : set.reserved = [])
    (volumes : ∀ p ∈ set.partitions, p.IsMbrVolume)
    (committed : (set.commit crc32).exec dev = (.ok (), after)) :
    (∃ parts, ReadsBackMbr crc32 set dev after parts ∧
      probeWithStatus crc32 after = .ok (.mbr, parts, .mbr)) ↔ ¬ dev.HasGptSignature := by
  obtain ⟨plan, accepted, flushed, rfl⟩ := plan_of_commitMbr crc32 mbr committed
  constructor
  · rintro ⟨parts, ⟨probed, _⟩, status⟩ signature
    have signed := (hasGptSignature_mbrCommitted accepted).mpr signature
    rw [probeWithStatus, probeInner_of_signature crc32 true signed] at status
    exact probeGpt_ne_mbr crc32 true status
  · intro unsigned
    have found := probeInner_new_mbr crc32 fresh volumes unsigned accepted
    exact ⟨_, readsBackMbr_of_probe crc32 accepted flushed volumes (found false), found true⟩

/-- The table `emptyMbr` starts keeps its two properties under every run of edits. -/
theorem applyAll_emptyMbr (size : UInt64) (edits : List Edit) :
    (Edit.applyAll edits (PartitionSet.emptyMbr size)).tableKind = .mbr ∧
      (Edit.applyAll edits (PartitionSet.emptyMbr size)).reserved = [] := by
  have same := Edit.sameTable_applyAll (PartitionSet.emptyMbr size) edits
  exact ⟨same.tableKind, same.reserved⟩

end NewTables

/-- An MBR commit over a committed GPT: the probe still reads the GPT. -/
theorem probe_mbr_over_gpt (crc32 : List UInt8 → UInt32) {dev : ByteDevice}
    {partitions volumes : List Partition} {diskGuid : Guid} {g : GptGeometry}
    {tails : EntryTails} {reserved : List ReservedEntry} {gpt : GptPlan} {mbr : MbrPlan}
    (gptAccepted : gpt.Accepted dev partitions g tails)
    (mbrAccepted : mbr.Accepted (gpt.committed crc32 diskGuid gptAccepted) volumes reserved) :
    probe crc32 (mbr.committed mbrAccepted) =
      .ok (.gpt, storedBySlot g (partitions.zip gpt.slots)) := by
  have gptLength := length_committed crc32 diskGuid gptAccepted
  have sameLength : (mbr.committed mbrAccepted).bytes.length = dev.bytes.length :=
    (length_mbrCommitted mbrAccepted).trans gptLength
  have lba := gptAccepted.usableOn.wellShaped.lba_ge
  have primary : HoldsPrimary crc32 gpt diskGuid g (mbr.committed mbrAccepted) := by
    have held := holdsPrimary_committed crc32 diskGuid gptAccepted
    unfold HoldsPrimary at held ⊢
    rw [slice_mbrCommitted_rest mbrAccepted (Nat.le_refl _), held, sizeBytes_eq sameLength,
      sizeBytes_eq gptLength]
  have array : HoldsArray gpt g (mbr.committed mbrAccepted) := by
    have held := holdsArray_committed crc32 diskGuid gptAccepted
    unfold HoldsArray at held ⊢
    rw [slice_mbrCommitted_rest mbrAccepted (by omega), held]
  rw [probe, probeInner_of_primary crc32 gptAccepted sameLength primary, probeGpt,
    parseGpt_of_holds crc32 gptAccepted sameLength primary array]
  rfl

/-- An empty MBR on the small disk of one GPT partition: the commit succeeds and the
next probe reports the GPT partition. -/
theorem gpt_outlives_empty_mbr :
    ∃ gptDisk after,
      (writeGptAssigningSlots CyclicSums.ieee [smallPartition] unusedTypeGuid smallGeometry
        (fun _ => none) []).exec eightSectors = (.ok [0], gptDisk) ∧
      ((PartitionSet.emptyMbr 4096).commit CyclicSums.ieee).exec gptDisk = (.ok (), after) ∧
      probe CyclicSums.ieee after = .ok (.gpt, [stored smallPartition 0]) ∧
      ¬ ∃ parts, ReadsBackMbr CyclicSums.ieee (PartitionSet.emptyMbr 4096) gptDisk after
        parts := by
  have planned := gptPlan_eightSectors
  cases made : gptPlan eightSectors [smallPartition] smallGeometry (fun _ => none) [] with
  | error error =>
      rw [made] at planned
      cases planned
  | ok gpt =>
      rw [made] at planned
      have slots : gpt.slots = [0] := Except.ok.inj planned
      have accepted := gptPlan_eq_ok made
      obtain ⟨mbr, mbrMade⟩ : ∃ mbr, mbrPlan
          (gpt.committed CyclicSums.ieee unusedTypeGuid accepted) [] [] = .ok mbr :=
        exists_mbrPlan rfl (by simp) .nil
          (by
            rw [length_committed]
            exact Nat.le_trans (by decide) (Nat.le_of_eq List.length_replicate.symm))
          (by simp) (by simp)
      have probed := probe_mbr_over_gpt CyclicSums.ieee accepted (mbrPlan_eq_ok mbrMade)
      have parts : storedBySlot smallGeometry ([smallPartition].zip gpt.slots) =
          [stored smallPartition 0] := by
        have perm := storedBySlot_perm accepted
        rw [slots] at perm ⊢
        exact List.perm_singleton.mp perm
      rw [parts] at probed
      have kind : (PartitionSet.emptyMbr 4096).tableKind = .mbr := rfl
      have committed := commitMbr_of_plan CyclicSums.ieee kind mbrMade rfl
      refine ⟨gpt.committed CyclicSums.ieee unusedTypeGuid accepted, _, ?_, committed, probed, ?_⟩
      · rw [writeGpt_of_plan CyclicSums.ieee made, slots]
      · rintro ⟨other, found, _⟩
        cases found.symm.trans probed

/-- A blank disk takes a new MBR with one partition. -/
theorem new_mbr_supersedes_blank :
    ∃ after, (oneVolumeSet.commit CyclicSums.ieee).exec eightSectors = (.ok (), after) ∧
      ∃ parts, ReadsBackMbr CyclicSums.ieee oneVolumeSet eightSectors after parts ∧
        probeWithStatus CyclicSums.ieee after = .ok (.mbr, parts, .mbr) := by
  have planned : (mbrPlan eightSectors oneVolumeSet.partitions []).map MbrPlan.slots =
      .ok [0] := by decide +kernel
  have kind : oneVolumeSet.tableKind = .mbr := rfl
  cases made : mbrPlan eightSectors oneVolumeSet.partitions [] with
  | error error =>
      rw [made] at planned
      cases planned
  | ok plan =>
      have committed := commitMbr_of_plan CyclicSums.ieee kind made rfl
      exact ⟨_, committed, (new_mbr_supersedes_iff CyclicSums.ieee kind rfl (by decide)
        committed).mpr (by decide +kernel)⟩

end DiskPartitions
