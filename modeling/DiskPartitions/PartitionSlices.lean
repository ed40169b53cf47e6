import DiskPartitions.ExactProbes
import DiskPartitions.FilesystemSniffing

/-!
# Opening a partition

A list of partitions hands one of them out as a device of its own, or says what its filesystem
is.  Both clamp the partition to its device, as the probe did when it said how much of it is
available; only the probe takes a size of zero for a device that states none.
-/

namespace DiskPartitions

open CheckedWords TrappingWords BoundedLooks Refusals

/-- The issues of an entry in words. -/
def EntryIssue.describe (issues : UInt32) : String :=
  let parts :=
    (if issues &&& beforeFirstUsable ≠ 0 then ["starts before the first usable LBA"] else []) ++
    (if issues &&& pastLastUsable ≠ 0 then ["ends past the last usable LBA"] else []) ++
    (if issues &&& overlapsAnother ≠ 0 then ["overlaps another partition"] else [])
  if parts.isEmpty then "no issues" else ", ".intercalate parts

/-- How much of a partition is on the device; `none` when it begins past the end. -/
def sliceOnDevice (parentSize start length : UInt64) : Option UInt64 :=
  if parentSize ≤ start then none
  else some (availableOnDevice start length parentSize)

/-- The part of a device that a slice covers. -/
structure OwnedSlice where
  start : UInt64
  length : UInt64
  deriving DecidableEq

/-- The slice of a partition of a list, or why there is none. -/
def partitionsOpenSlice (parent : BlockRead) (entries : List Partition) (index : Nat) :
    Except String OwnedSlice := do
  let raw ← orRefuse entries[index]? "partitions_open_slice: index out of bounds"
  refuseIf (raw.issues ≠ EntryIssue.none)
    (s!"partitions_open_slice: the entry at index {index} {EntryIssue.describe raw.issues}; " ++
      "read its `issues` field and decide before opening it")
  let length ← orRefuse (sliceOnDevice parent.sizeBytes raw.start raw.length)
    "partitions_open_slice: the partition begins past the end of the device"
  return ⟨raw.start, length⟩

/-- Reads inside the stated size succeed. -/
def BlockRead.ReadsInRange (dev : BlockRead) : Prop :=
  ∀ off len, off + len ≤ dev.sizeBytes.toNat → ∃ bytes, dev.readAt off len = .ok bytes

/-- What a partition says is available is what its readers get. -/
structure ReadersGet (dev : BlockRead) (entries : List Partition) (index : Nat) (p : Partition) :
    Prop where
  sliced : p.issues = 0 → 0 < p.availableLength →
    partitionsOpenSlice dev entries index = .ok ⟨p.start, p.availableLength⟩
  sniffed : p.issues = 0 → 0 < p.availableLength →
    ∃ bytes kind, sniffLength dev.sizeBytes p = exact (.ok (min sniffWindow p.availableLength)) ∧
      dev.readAt p.start.toNat (min sniffWindow p.availableLength).toNat = .ok bytes ∧
      classify bytes = some kind ∧ sniff dev p = exact (.ok kind)
  absent : p.availableLength = 0 →
    (∃ why, partitionsOpenSlice dev entries index = .error why) ∧
      ∃ error, sniff dev p = exact (.error error)

/-! ## A device that states its size -/

section Stated

variable {dev : BlockRead} {entries : List Partition} {index : Nat} {p : Partition}

theorem availableLength_eq {deviceSize : UInt64} (listed : p.ListedOn deviceSize) :
    p.availableLength = availableOnDevice p.start p.length deviceSize := by
  rw [← UInt64.toNat_inj, ← Int.natCast_inj, listed.available]
  exact (toNat_availableOnDevice _ _ _).symm

/-- What is available is what begins on the device. -/
theorem availableLength_pos_iff {deviceSize : UInt64} (listed : p.ListedOn deviceSize)
    (stated : deviceSize ≠ 0) : 0 < p.availableLength ↔ p.start < deviceSize := by
  have available := listed.available
  have positive := listed.length_pos
  rw [if_neg stated] at available
  rw [UInt64.lt_iff_toNat_lt, UInt64.lt_iff_toNat_lt, UInt64.toNat_zero]
  omega

/-- A device that states no size has all of every partition available. -/
theorem availableLength_pos {deviceSize : UInt64} (listed : p.ListedOn deviceSize)
    (unstated : deviceSize = 0) : 0 < p.availableLength := by
  have available := listed.available
  have positive := listed.length_pos
  rw [if_pos unstated] at available
  rw [UInt64.lt_iff_toNat_lt, UInt64.toNat_zero]
  omega

theorem partitionsOpenSlice_eq (found : entries[index]? = some p) :
    partitionsOpenSlice dev entries index = do
      refuseIf (p.issues ≠ EntryIssue.none)
        (s!"partitions_open_slice: the entry at index {index} {EntryIssue.describe p.issues}; " ++
          "read its `issues` field and decide before opening it")
      let length ← orRefuse (sliceOnDevice dev.sizeBytes p.start p.length)
        "partitions_open_slice: the partition begins past the end of the device"
      return ⟨p.start, length⟩ := by
  unfold partitionsOpenSlice
  rw [found]
  rfl

theorem partitionsOpenSlice_of_lt (found : entries[index]? = some p) (sound : p.issues = 0)
    (begins : p.start < dev.sizeBytes) :
    partitionsOpenSlice dev entries index =
      .ok ⟨p.start, availableOnDevice p.start p.length dev.sizeBytes⟩ := by
  have here : ¬ dev.sizeBytes ≤ p.start := by
    rw [UInt64.lt_iff_toNat_lt] at begins
    rw [UInt64.le_iff_toNat_le]
    omega
  rw [partitionsOpenSlice_eq found, refuseIf_of_not (show ¬ p.issues ≠ EntryIssue.none from not_not.mpr sound),
    ok_bind, sliceOnDevice, if_neg here]
  rfl

/-- A partition that begins past the end is not opened. -/
theorem partitionsOpenSlice_of_le (found : entries[index]? = some p)
    (past : dev.sizeBytes ≤ p.start) : ∃ why, partitionsOpenSlice dev entries index = .error why := by
  rw [partitionsOpenSlice_eq found]
  by_cases sound : p.issues = EntryIssue.none
  · rw [refuseIf_of_not (not_not.mpr sound), ok_bind, sliceOnDevice, if_pos past]
    exact ⟨_, rfl⟩
  · rw [refuseIf, if_pos sound]
    exact ⟨_, rfl⟩

theorem readersGet_of_stated (reads : dev.ReadsInRange) (found : entries[index]? = some p)
    (listed : p.ListedOn dev.sizeBytes) (stated : dev.sizeBytes ≠ 0) :
    ReadersGet dev entries index p := by
  have same := availableLength_eq listed
  have begins_iff := availableLength_pos_iff listed stated
  constructor
  · intro sound present
    rw [same]
    exact partitionsOpenSlice_of_lt found sound (begins_iff.mp present)
  · intro sound present
    have begins := begins_iff.mp present
    obtain ⟨len, window, size⟩ := sniffLength_of_lt begins
    have available := listed.available
    have positive := listed.length_pos
    rw [if_neg stated] at available
    rw [UInt64.lt_iff_toNat_lt] at begins
    have whole : len = min sniffWindow p.availableLength := by
      rw [← UInt64.toNat_inj, toNat_min, toNat_sniffWindow, size]
      omega
    obtain ⟨bytes, read⟩ := reads p.start.toNat len.toNat (by omega)
    obtain ⟨kind, classified⟩ := Option.isSome_iff_exists.mp (classify_isSome bytes)
    refine ⟨bytes, kind, by rw [← whole]; exact window, by rw [← whole]; exact read,
      classified, ?_⟩
    unfold sniff BlockRead.read
    rw [window, exact_ok_bind, read]
    change word (classify bytes) = _
    rw [classified]
    rfl
  · intro none
    have past : dev.sizeBytes ≤ p.start := by
      by_contra here
      have present := begins_iff.mpr (UInt64.not_le.mp here)
      rw [none] at present
      exact absurd present (by decide)
    exact ⟨partitionsOpenSlice_of_le found past, _, sniff_of_le past⟩

end Stated

/-- Of a device whose reads succeed, every partition that a probe lists is handed out as it says
if and only if the device states a size, or no listed partition is without issues. -/
theorem readersGet_iff {crc32 : List UInt8 → UInt32} {dev : BlockRead} {kind : TableKind}
    {parts : List Partition} (reads : dev.ReadsInRange)
    (probed : probe crc32 dev = .ok (kind, parts)) :
    (∀ index p, parts[index]? = some p → ReadersGet dev parts index p) ↔
      dev.sizeBytes ≠ 0 ∨ ∀ p ∈ parts, p.issues ≠ 0 := by
  obtain ⟨source, inner⟩ := probe_eq_ok.mp probed
  have listed := (reportsExactly_of_probeInner inner).listed
  constructor
  · intro every
    by_contra unsized
    rw [not_or, not_not, not_forall] at unsized
    obtain ⟨unstated, p, unsound⟩ := unsized
    obtain ⟨member, sound⟩ := Classical.not_imp.mp unsound
    rw [not_not] at sound
    obtain ⟨index, found⟩ := List.getElem?_of_mem member
    have opened := (every index p found).sliced sound (availableLength_pos (listed p member) unstated)
    obtain ⟨why, refused⟩ := @partitionsOpenSlice_of_le dev _ _ _ found (by
      rw [unstated, UInt64.le_iff_toNat_le]
      exact Nat.zero_le _)
    rw [opened] at refused
    cases refused
  · rintro (stated | unsound) index p found
    · exact readersGet_of_stated reads found (listed p (List.mem_of_getElem? found)) stated
    · have member := List.mem_of_getElem? found
      by_cases stated : dev.sizeBytes = 0
      · have present := availableLength_pos (listed p member) stated
        refine ⟨fun sound => absurd sound (unsound p member),
          fun sound => absurd sound (unsound p member), ?_⟩
        intro none
        rw [none] at present
        exact absurd present (by decide)
      · exact readersGet_of_stated reads found (listed p member) stated

/-- The volumes of the hybrid disk are handed out as the probe lists them. -/
theorem readersGet_hybridDisk :
    (parseMbr (Slices.slice hybridDisk.bytes 0 512) 1536).length = 2 ∧
      ∀ index p, (parseMbr (Slices.slice hybridDisk.bytes 0 512) 1536)[index]? = some p →
        ReadersGet hybridDisk (parseMbr (Slices.slice hybridDisk.bytes 0 512) 1536) index p := by
  have reads : hybridDisk.toBlockRead.ReadsInRange := by
    intro off len inside
    rw [hybridDisk.holds.size] at inside
    exact ⟨_, hybridDisk.holds.reads off len inside⟩
  have probed : probe CyclicSums.ieee hybridDisk =
      .ok (.mbr, parseMbr (Slices.slice hybridDisk.bytes 0 512) 1536) := by decide +kernel
  constructor
  · decide +kernel
  · exact (readersGet_iff reads probed).mpr (.inl (by decide +kernel))

/-- The hybrid disk, behind a device that does not say how large it is. -/
def silentDisk : BlockRead where
  sizeBytes := 0
  readAt := hybridDisk.readAt
  length_readAt := hybridDisk.toBlockRead.length_readAt

/-- The sector of a volume is said to be available and read, and neither reader gets it. -/
theorem readersGet_silentDisk :
    ∃ p rest, probe CyclicSums.ieee silentDisk = .ok (.mbr, p :: rest) ∧ p.issues = 0 ∧
      p.availableLength = 512 ∧ (∃ bytes, silentDisk.readAt p.start.toNat 512 = .ok bytes) ∧
      partitionsOpenSlice silentDisk (p :: rest) 0 =
        .error "partitions_open_slice: the partition begins past the end of the device" ∧
      sniff silentDisk p = exact (.error (.block (.shortRead 512 512 0))) ∧
      ¬ ReadersGet silentDisk (p :: rest) 0 p := by
  have probed : probe CyclicSums.ieee silentDisk =
      .ok (.mbr, parseMbr (Slices.slice hybridDisk.bytes 0 512) 0) := by decide +kernel
  obtain ⟨p, rest, listed⟩ : ∃ p rest,
      parseMbr (Slices.slice hybridDisk.bytes 0 512) 0 = p :: rest ∧ p.issues = 0 ∧
        p.start = 512 ∧ p.length = 512 ∧ p.availableLength = 512 := by
    have first : (parseMbr (Slices.slice hybridDisk.bytes 0 512) 0).head?.map (fun p =>
        (p.issues, p.start, p.length, p.availableLength)) = some (0, 512, 512, 512) := by
      decide +kernel
    generalize parseMbr (Slices.slice hybridDisk.bytes 0 512) 0 = volumes at first
    cases volumes with
    | nil => cases first
    | cons p rest =>
        simp only [List.head?_cons, Option.map_some, Option.some.injEq, Prod.mk.injEq] at first
        exact ⟨p, rest, rfl, first⟩
  obtain ⟨same, sound, start, length, available⟩ := listed
  rw [same] at probed
  have refused : partitionsOpenSlice silentDisk (p :: rest) 0 =
      .error "partitions_open_slice: the partition begins past the end of the device" := by
    rw [partitionsOpenSlice_eq (List.getElem?_cons_zero),
      refuseIf_of_not (show ¬ p.issues ≠ EntryIssue.none from not_not.mpr sound), ok_bind, start,
      sliceOnDevice, if_pos (show silentDisk.sizeBytes ≤ 512 by decide)]
    rfl
  have read : silentDisk.readAt 512 512 = .ok (Slices.slice hybridDisk.bytes 512 512) :=
    hybridDisk.holds.reads 512 512 (by decide +kernel)
  refine ⟨p, rest, probed, sound, available, ?_, refused, ?_, ?_⟩
  · rw [start, show (512 : UInt64).toNat = 512 from rfl, read]
    exact ⟨_, rfl⟩
  · have empty := @sniff_of_le silentDisk p (by rw [start]; decide)
    rw [start, length] at empty
    exact empty
  · intro get
    have opened := get.sliced sound (by rw [available]; decide)
    rw [refused] at opened
    cases opened

end DiskPartitions
