import DiskPartitions.GptRoundTrip
import DiskPartitions.ProbedSets
import DiskPartitions.StableSorts

/-!
# What a backup's verdict depends on

Validation sorts both lists by the first byte of a partition and compares them pair by pair.
The sort is stable, so partitions that start at the same byte are compared in the order they
are listed in: with such partitions in the backup the verdict depends on the order of the
primary's list, and without them it decides whether the two lists hold the same partitions.
-/

namespace DiskPartitions

open Slices LittleEndian CheckedWords Refusals StableSorts

/-! ## Comparing by fields -/

/-- The fields two partitions are compared by: start, length, unique GUID, kind, slot and
label. -/
abbrev ComparedFields :=
  UInt64 × UInt64 × Option Guid × PartitionKind × Option UInt32 × Option String

def Partition.compared (p : Partition) : ComparedFields :=
  (p.start, p.length, p.uuid, p.kind, p.slot, p.label)

/-- The first byte of a partition, read off its compared fields. -/
def startOf (fields : ComparedFields) : Nat := fields.1.toNat

theorem comparePartitions_eq_ok {a b : Partition} :
    comparePartitions a b = .ok ↔ a.compared = b.compared := by
  simp only [comparePartitions, Partition.compared, Prod.mk.injEq]
  split
  next range =>
      simp only [reduceCtorEq, false_iff]
      rintro ⟨start, length, _⟩
      exact range.elim (· start) (· length)
  next range =>
      push Not at range
      split
      next uuid => simp [uuid]
      next uuid =>
          split
          next kind => simp [kind]
          next kind =>
              split
              next slot => simp [slot]
              next slot =>
                  split
                  next label => simp [label]
                  next label => simp_all

/-- Equally long lists compare equal exactly when they agree field by field. -/
theorem compareLists_eq_ok {first second : List Partition}
    (lengths : first.length = second.length) :
    compareLists first second = .ok ↔
      first.map Partition.compared = second.map Partition.compared := by
  induction first generalizing second with
  | nil =>
      cases second with
      | nil => simp [compareLists]
      | cons => simp at lengths
  | cons a first ih =>
      cases second with
      | nil => simp at lengths
      | cons b second =>
          have rest := ih (Nat.succ.inj lengths)
          rw [compareLists, List.map_cons, List.map_cons, List.cons.injEq,
            ← comparePartitions_eq_ok, ← rest]
          cases comparePartitions a b <;> simp

theorem map_compared_sortByStart (partitions : List Partition) :
    (sortByStart partitions).map Partition.compared =
      sortBy startOf (partitions.map Partition.compared) := by
  rw [sortByStart, sortBy]
  apply List.map_insertionSort
  intro p _ q _
  exact UInt64.le_iff_toNat_le

section Verdicts

variable {crc32 : List UInt8 → UInt32} {dev : BlockRead}

/-- The verdict is that the lists are identical exactly when the backup parses and the two
lists sort alike. -/
theorem validateBackup_eq_ok {primary : List Partition} :
    validateBackup crc32 dev primary = .ok ↔
      ∃ backup, parseBackup crc32 dev = .ok backup ∧
        sortBy startOf (primary.map Partition.compared) =
          sortBy startOf (backup.map Partition.compared) := by
  unfold validateBackup
  split
  next => simp_all
  next => simp_all
  next => simp_all
  next => simp_all
  next backup parsed =>
      rw [parsed]
      simp only [Except.ok.injEq, exists_eq_left']
      split
      next lengths =>
          simp only [reduceCtorEq, false_iff]
          intro same
          have := (@sortBy_perm _ startOf (primary.map Partition.compared)).length_eq
          have := (@sortBy_perm _ startOf (backup.map Partition.compared)).length_eq
          simp_all
      next lengths =>
          have sorted : (sortByStart primary).length = (sortByStart backup).length := by
            rw [sortByStart, sortByStart, List.length_insertionSort,
              List.length_insertionSort]
            exact (not_not.mp lengths).symm
          rw [compareLists_eq_ok sorted, map_compared_sortByStart, map_compared_sortByStart]

/-- The partitions of a parsed backup sit in slots of their own. -/
theorem nodup_parseBackup {backup : List Partition}
    (parsed : parseBackup crc32 dev = .ok backup) :
    (backup.map Partition.compared).Nodup := by
  obtain ⟨_, parsed⟩ := refuseIf_bind_eq_ok.mp parsed
  obtain ⟨_, _, parsed⟩ := bind_eq_ok.mp parsed
  obtain ⟨header, _, parsed⟩ := bind_eq_ok.mp parsed
  obtain ⟨_, parsed⟩ := refuseIf_bind_eq_ok.mp parsed
  obtain ⟨⟨parts, array⟩, entries, parsed⟩ := bind_eq_ok.mp parsed
  cases parsed
  rw [List.Nodup, List.pairwise_map]
  apply (slotOrder_of_parseEntryArray entries).imp
  rintro p q ⟨first, second, here, there, before⟩ same
  have equal : p.slot = q.slot := congrArg (fun fields => fields.2.2.2.2.1) same
  rw [here, there, Option.some.injEq] at equal
  exact UInt32.lt_irrefl _ (equal ▸ before)

/-- Whether the verdict on a list is that it holds the backup's partitions, whatever order
they come in. -/
def DecidesEquality (crc32 : List UInt8 → UInt32) (dev : BlockRead)
    (primary : List Partition) : Prop :=
  validateBackup crc32 dev primary = .ok ↔
    ∃ backup, parseBackup crc32 dev = .ok backup ∧
      (backup.map Partition.compared).Perm (primary.map Partition.compared)

/-- Whether every arrangement of a list gets the same verdict. -/
def IgnoresOrder (crc32 : List UInt8 → UInt32) (dev : BlockRead)
    (primary : List Partition) : Prop :=
  ∀ other : List Partition, other.Perm primary →
    (validateBackup crc32 dev other = .ok ↔ validateBackup crc32 dev primary = .ok)

/-- Lists that sort alike hold the same items. -/
theorem perm_of_sortBy_eq {first second : List ComparedFields}
    (same : sortBy startOf first = sortBy startOf second) : second.Perm first :=
  (sortBy_perm second).symm.trans (same ▸ sortBy_perm first)

/-- A backup whose partitions start at bytes of their own is compared as a set. -/
theorem decidesEquality_of_distinct {primary : List Partition}
    (distinct : ∀ backup, parseBackup crc32 dev = .ok backup →
      (backup.map Partition.compared).Perm (primary.map Partition.compared) →
        (backup.map Partition.start).Nodup) :
    DecidesEquality crc32 dev primary := by
  rw [DecidesEquality, validateBackup_eq_ok]
  constructor
  · rintro ⟨backup, parsed, same⟩
    exact ⟨backup, parsed, perm_of_sortBy_eq same⟩
  · rintro ⟨backup, parsed, perm⟩
    refine ⟨backup, parsed, sortBy_of_perm perm.symm ?_⟩
    have starts := distinct backup parsed perm
    rw [List.Nodup, List.pairwise_map] at starts
    rw [List.Nodup, List.pairwise_map, List.pairwise_map]
    exact starts.imp fun apart same => apart (UInt64.toNat_inj.mp same)

/-- Partitions of a backup that start at the same byte are taken for others when they are
listed in the other order. -/
theorem exists_refused_of_tied {backup primary : List Partition}
    (parsed : parseBackup crc32 dev = .ok backup)
    (perm : (backup.map Partition.compared).Perm (primary.map Partition.compared))
    (tied : ¬ (backup.map Partition.start).Nodup) :
    ∃ other : List Partition, other.Perm primary ∧ validateBackup crc32 dev other ≠ .ok := by
  have repeated : ¬ ((backup.map Partition.compared).map startOf).Nodup := by
    intro distinct
    rw [List.Nodup, List.pairwise_map, List.pairwise_map] at distinct
    apply tied
    rw [List.Nodup, List.pairwise_map]
    exact distinct.imp fun apart same => apart (congrArg UInt64.toNat same)
  obtain ⟨fields, arranged, differs⟩ :=
    exists_perm_sortBy_ne (nodup_parseBackup parsed) repeated
  obtain ⟨other, same, rfl⟩ := exists_perm_map Partition.compared (arranged.trans perm)
  refine ⟨other, same, ?_⟩
  intro accepted
  obtain ⟨again, parsedAgain, sorted⟩ := validateBackup_eq_ok.mp accepted
  rw [parsed, Except.ok.injEq] at parsedAgain
  exact differs (parsedAgain ▸ sorted)

/-- The verdict decides whether the two lists hold the same partitions, in every order of the
primary's, exactly when a backup with those partitions has no two that start at the same
byte. -/
theorem decidesEquality_iff (crc32 : List UInt8 → UInt32) (dev : BlockRead)
    (primary : List Partition) :
    (DecidesEquality crc32 dev primary ∧ IgnoresOrder crc32 dev primary) ↔
      ∀ backup, parseBackup crc32 dev = .ok backup →
        (backup.map Partition.compared).Perm (primary.map Partition.compared) →
          (backup.map Partition.start).Nodup := by
  constructor
  · rintro ⟨decides, ignores⟩ backup parsed perm
    by_contra tied
    obtain ⟨other, arranged, refused⟩ := exists_refused_of_tied parsed perm tied
    exact refused ((ignores other arranged).mpr (decides.mpr ⟨backup, parsed, perm⟩))
  · intro distinct
    have decides := decidesEquality_of_distinct distinct
    refine ⟨decides, ?_⟩
    intro other arranged
    have compared := arranged.map Partition.compared
    have decidesOther : DecidesEquality crc32 dev other :=
      decidesEquality_of_distinct fun backup parsed perm =>
        distinct backup parsed (perm.trans compared)
    rw [DecidesEquality] at decides decidesOther
    rw [decidesOther, decides]
    constructor
    · rintro ⟨backup, parsed, perm⟩
      exact ⟨backup, parsed, perm.trans compared⟩
    · rintro ⟨backup, parsed, perm⟩
      exact ⟨backup, parsed, perm.trans compared.symm⟩

end Verdicts

/-! ## Two entries at one byte -/

/-- A table of four entries at LBA 2. -/
def fourEntries : GptGeometry where
  numEntries := 4
  entrySize := 128
  entryLba := 2
  declaredUsable := none

theorem fourEntries_wellShaped : fourEntries.WellShaped where
  entries_pos := by decide
  entries_le := by decide
  size_ge := by decide
  size_le := by decide
  size_isEntrySize := by decide
  lba_ge := by decide
  end_le := by decide

/-- Entry `i` of the tied backup: `i + 1` sectors from LBA 0 on. -/
def tiedRecord (i : Nat) : EntryRecord where
  typeGuid := .filled 1
  uuid := .filled (UInt8.ofNat (i + 1))
  startLba := 0
  endLba := UInt64.ofNat i
  attributes := 0
  label := none

theorem tiedRecord_readable {i : Nat} (small : i < 2) : (tiedRecord i).Readable := by
  have cases : i = 0 ∨ i = 1 := by omega
  rcases cases with rfl | rfl
  · exact ⟨by decide, by decide, by decide⟩
  · exact ⟨by decide, by decide, by decide⟩

/-- The entries of the tied backup, two of them used. -/
def tiedBlock (i : Nat) : List UInt8 :=
  if i < 2 then (tiedRecord i).image 128 [] else List.replicate 128 0

theorem length_tiedBlock (i : Nat) : (tiedBlock i).length = 128 := by
  unfold tiedBlock
  split
  next => exact EntryRecord.length_image (by simp)
  next => exact List.length_replicate

/-- The two partitions of the tied backup, as a device of four sectors reports them. -/
def tiedPartition (i : Nat) : Partition :=
  { (tiedRecord i).partition i 2048 with issues := EntryIssue.overlapsAnother }

section Tied

variable (crc32 : List UInt8 → UInt32)

def tiedArray : List UInt8 := blocks tiedBlock 4

/-- The backup header in the last of four sectors. -/
def tiedHeader : List UInt8 :=
  buildHeader crc32 3 1 2 (0, 3) unusedTypeGuid (crc32 tiedArray) fourEntries

theorem length_tiedArray : tiedArray.length = 512 :=
  length_blocks fun i _ => length_tiedBlock i

/-- Four sectors: two of zeros, the array and the backup header. -/
def tiedDevice : ByteDevice where
  bytes := List.replicate 1024 0 ++ tiedArray ++ tiedHeader crc32
  writable := true
  flushed := .ok ()
  journal := []
  length_lt := by
    rw [List.length_append, List.length_append, List.length_replicate, length_tiedArray,
      tiedHeader, length_buildHeader]
    decide

theorem bytes_tiedDevice :
    (tiedDevice crc32).bytes = List.replicate 1024 0 ++ tiedArray ++ tiedHeader crc32 := by
  simp only [tiedDevice]

theorem length_tiedDevice : (tiedDevice crc32).bytes.length = 2048 := by
  simp only [tiedDevice, List.length_append, List.length_replicate, length_tiedArray,
    tiedHeader, length_buildHeader]

theorem parseEntries_tied :
    parseEntries 128 2048 tiedArray (List.range 4) =
      .ok [((tiedRecord 0).partition 0 2048, 0, 0), ((tiedRecord 1).partition 1 2048, 0, 1)] := by
  have each : ∀ i ∈ List.range 4, parseEntry 128 2048 tiedArray i =
      .ok (if i < 2 then
        some ((tiedRecord i).partition i 2048, (tiedRecord i).startLba, (tiedRecord i).endLba)
        else none) := by
    intro i member
    have present := List.mem_range.mp member
    split
    next small =>
        exact parseEntry_image (fun i _ => length_tiedBlock i) present 2048 (by simp)
          (tiedRecord_readable small) (if_pos small)
    next large =>
        exact parseEntry_unused (fun i _ => length_tiedBlock i) present 2048 (by decide)
          (if_neg large)
  rw [parseEntries_eq_ok each]
  rfl

/-- Both entries are found to share sector 0. -/
theorem withIssues_tied :
    withIssues (builtHeader 3 1 2 (0, 3) unusedTypeGuid (crc32 tiedArray) fourEntries crc32)
      [((tiedRecord 0).partition 0 2048, 0, 0), ((tiedRecord 1).partition 1 2048, 0, 1)] =
        [tiedPartition 0, tiedPartition 1] := by
  simp only [withIssues, builtHeader]
  decide

/-- The tied backup parses to its two partitions, in slot order. -/
theorem parseBackup_tied :
    parseBackup crc32 (tiedDevice crc32) = .ok [tiedPartition 0, tiedPartition 1] := by
  have size : (tiedDevice crc32).toBlockRead.sizeBytes = 2048 := by
    apply UInt64.toNat_inj.mp
    rw [(tiedDevice crc32).holds.size, length_tiedDevice]
    rfl
  have large : ¬ (2048 : UInt64) < 2 * sectorSize := by decide
  have array : slice (tiedDevice crc32).bytes 1024 512 = tiedArray := by
    have held := @slice_append_middle _ (List.replicate 1024 0) tiedArray (tiedHeader crc32) 0
      512 (by rw [length_tiedArray])
    have whole := slice_full tiedArray
    rw [length_tiedArray] at whole
    rw [List.length_replicate, Nat.add_zero, whole] at held
    rw [bytes_tiedDevice, held]
  have read : BlockRead.read (tiedDevice crc32) 1536 512 = .ok (tiedHeader crc32) := by
    have before : (List.replicate 1024 0 ++ tiedArray).length = 1536 := by
      rw [List.length_append, List.length_replicate, length_tiedArray]
    have width : (tiedHeader crc32).length = 512 := length_buildHeader crc32
    have held := @slice_append_right _ (List.replicate 1024 0 ++ tiedArray) (tiedHeader crc32)
      1536 512 (by rw [before])
    have whole := slice_full (tiedHeader crc32)
    rw [width] at whole
    rw [before, Nat.sub_self, whole] at held
    have inside : 1536 + 512 ≤ (tiedDevice crc32).bytes.length := by
      rw [length_tiedDevice]
    rw [read_eq_ok, (tiedDevice crc32).holds.reads 1536 512 inside, bytes_tiedDevice, held]
  have header : parseHeader crc32 (tiedHeader crc32) =
      .ok (builtHeader 3 1 2 (0, 3) unusedTypeGuid (crc32 tiedArray) fourEntries crc32) :=
    parseHeader_buildHeader crc32 fourEntries_wellShaped
  have describes : Describes
      (builtHeader 3 1 2 (0, 3) unusedTypeGuid (crc32 tiedArray) fourEntries crc32)
      fourEntries (0, 3) := describes_builtHeader crc32 _ _ _ _ _ _ _
  have entries : parseEntryArray crc32 (tiedDevice crc32)
      (builtHeader 3 1 2 (0, 3) unusedTypeGuid (crc32 tiedArray) fourEntries crc32) =
        .ok ([tiedPartition 0, tiedPartition 1], tiedArray) := by
    have inside : (builtHeader 3 1 2 (0, 3) unusedTypeGuid (crc32 tiedArray) fourEntries
        crc32).partitionEntryLba.toNat * 512 + fourEntries.arrayBytes.toNat ≤
          (tiedDevice crc32).bytes.length := by
      have offset : (builtHeader 3 1 2 (0, 3) unusedTypeGuid (crc32 tiedArray) fourEntries
        crc32).partitionEntryLba.toNat = 2 := rfl
      have bytes : fourEntries.arrayBytes.toNat = 512 := by decide
      rw [length_tiedDevice, offset, bytes]
      decide
    rw [parseEntryArray_eq crc32 describes inside]
    have offset : (builtHeader 3 1 2 (0, 3) unusedTypeGuid (crc32 tiedArray) fourEntries
      crc32).partitionEntryLba.toNat * 512 = 1024 := by
        simp only [builtHeader]
        decide
    have bytes : fourEntries.arrayBytes.toNat = 512 := by decide
    have checked : ¬ (crc32 tiedArray ≠ (builtHeader 3 1 2 (0, 3) unusedTypeGuid
      (crc32 tiedArray) fourEntries crc32).partitionEntryArrayCrc32) := not_not.mpr rfl
    have entrySize : fourEntries.entrySize.toNat = 128 := rfl
    have entryCount : fourEntries.numEntries.toNat = 4 := rfl
    have reported : (tiedDevice crc32).sizeBytes = 2048 := size
    simp only [offset, bytes, array, refuseIf_of_not checked, ok_bind, entrySize, entryCount,
      reported, parseEntries_tied, pure_eq_ok, withIssues_tied]
  have own : ¬ ((builtHeader 3 1 2 (0, 3) unusedTypeGuid (crc32 tiedArray) fourEntries
      crc32).myLba ≠ 2048 / sectorSize - 1) := by
    simp only [builtHeader]
    decide
  have offset : ((2048 / sectorSize - 1) * sectorSize).toNat = 1536 := by decide
  simp only [parseBackup, size, refuseIf_of_not large, ok_bind, offset, read, header,
    refuseIf_of_not own, entries]
  rfl

/-- The two partitions of the tied backup are not recognised the other way round. -/
theorem validateBackup_tied :
    ¬ DecidesEquality CyclicSums.ieee (tiedDevice CyclicSums.ieee)
      [tiedPartition 1, tiedPartition 0] := by
  intro decides
  have accepted := decides.mpr ⟨_, parseBackup_tied _, List.Perm.swap _ _ _⟩
  obtain ⟨backup, parsed, same⟩ := validateBackup_eq_ok.mp accepted
  rw [parseBackup_tied, Except.ok.injEq] at parsed
  subst parsed
  -- the two share their start, and the sort keeps them as they were listed
  have lengths := congrArg (List.map fun fields : ComparedFields => fields.2.1) same
  revert lengths
  decide

end Tied

end DiskPartitions
