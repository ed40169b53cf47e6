import DiskPartitions.GptRoundTrip

/-!
# A GPT commit that is interrupted

A commit over a table of the same geometry stops after some of its sectors.  Up to
the primary header the old table is whole; from there to the end of the primary
array the new header stands over an array that fails its checksum, and the old
backup is whole; after that the new primary copy is whole.
-/

namespace DiskPartitions

open Slices LittleEndian CheckedWords Refusals WriteJournal

section Probing

variable (crc32 : List UInt8 → UInt32) {dev state : ByteDevice} {partitions : List Partition}
  {diskGuid : Guid} {g : GptGeometry} {tails : EntryTails} {plan : GptPlan}

/-- A device with a whole primary copy is read as that table, whatever its backup. -/
theorem probeWithStatus_of_holds (accepted : plan.Accepted dev partitions g tails)
    (sameLength : state.bytes.length = dev.bytes.length)
    (primary : HoldsPrimary crc32 plan diskGuid g state) (array : HoldsArray plan g state) :
    ∃ source, probeWithStatus crc32 state =
      .ok (.gpt, storedBySlot g (partitions.zip plan.slots), source) := by
  refine ⟨sourceOf (validateBackup crc32 state (storedBySlot g (partitions.zip plan.slots))), ?_⟩
  rw [probeWithStatus, probeInner_of_primary crc32 accepted sameLength primary, probeGpt,
    parseGpt_of_holds crc32 accepted sameLength primary array]
  simp

variable {oldDev : ByteDevice} {oldPartitions : List Partition} {oldGuid : Guid}
  {oldTails : EntryTails} {oldPlan : GptPlan}

/-- A new header over a damaged array sends the probe to the old backup. -/
theorem probeWithStatus_of_damaged (accepted : plan.Accepted dev partitions g tails)
    (oldAccepted : oldPlan.Accepted oldDev oldPartitions g oldTails)
    (sameLength : state.bytes.length = dev.bytes.length)
    (oldLength : state.bytes.length = oldDev.bytes.length)
    (primary : HoldsPrimary crc32 plan diskGuid g state)
    (damaged : crc32 (slice state.bytes (g.entryLba.toNat * 512) g.arrayBytes.toNat) ≠
      crc32 plan.array)
    (backup : HoldsBackup crc32 oldPlan oldGuid g state) :
    probeWithStatus crc32 state =
      .ok (.gpt, storedBySlot g (oldPartitions.zip oldPlan.slots), .recoveredFromBackup) := by
  rw [probeWithStatus, probeInner_of_primary crc32 accepted sameLength primary, probeGpt,
    parseGpt_of_damaged crc32 accepted sameLength primary damaged]
  simp only [if_true]
  rw [recoverFromBackup, parseBackup_of_holds crc32 oldAccepted oldLength backup]

end Probing

/-! ## What each stage leaves in the regions -/

section Stages

variable (crc32 : List UInt8 → UInt32) {dev : ByteDevice} {partitions : List Partition}
  {diskGuid : Guid} {g : GptGeometry} {tails : EntryTails} {plan : GptPlan}
  (accepted : plan.Accepted dev partitions g tails)

include accepted

/-- The five writes of a plan, by the sectors they start at. -/
theorem writes_eq :
    plan.writes crc32 diskGuid g (dev.sizeBytes / sectorSize) =
      [⟨0, plan.lba0⟩, ⟨512, plan.primary crc32 diskGuid g (dev.sizeBytes / sectorSize)⟩,
        ⟨g.entryLba.toNat * 512, plan.array⟩,
        ⟨(dev.bytes.length / 512 - 1 - g.arraySectors.toNat) * 512, plan.array⟩,
        ⟨(dev.bytes.length / 512 - 1) * 512,
          plan.backup crc32 diskGuid g (dev.sizeBytes / sectorSize)⟩] := by
  have room := accepted.usableOn.room
  have total := totalSectors_lt dev
  have last := toNat_lastLba accepted
  have backup := toNat_backupEntriesLba accepted
  unfold GptPlan.writes
  rw [toNat_lba_mul (by omega), toNat_lba_mul (by omega), toNat_lba_mul (by omega), last, backup]
  rfl

end Stages

section Interrupted

variable (crc32 : List UInt8 → UInt32) {before state : ByteDevice} {g : GptGeometry}
  {partitions : List Partition} {diskGuid : Guid} {tails : EntryTails} {plan : GptPlan}
  (accepted : plan.Accepted before partitions g tails)

include accepted

/-- Until the primary header is written everything past LBA 0 is as it was. -/
theorem slice_of_lba0
    (reached : state.bytes = before.bytes ∨
      state.bytes = applyAll [⟨0, plan.lba0⟩] before.bytes) :
    state.bytes.length = before.bytes.length ∧
      ∀ start len, 512 ≤ start → slice state.bytes start len = slice before.bytes start len := by
  have room := accepted.usableOn.room
  have width := accepted.length_lba0
  have inside : ∀ write ∈ [(⟨0, plan.lba0⟩ : Write UInt8)],
      write.Inside before.bytes.length := by
    simp only [List.mem_singleton, forall_eq, Write.Inside]
    omega
  rcases reached with same | same
  · simp [same]
  · refine ⟨by rw [same, length_applyAll inside], fun start len past => ?_⟩
    rw [same, slice_applyAll_disjoint inside]
    simp only [List.mem_singleton, forall_eq]
    omega

/-- While the primary array is being written the new header stands over a mixture of
the two arrays, and everything past the array is as it was. -/
theorem slice_of_array {done : Nat} (bound : done * 512 < g.arrayBytes.toNat)
    (reached : state.bytes = applyAll
      [⟨0, plan.lba0⟩, ⟨512, plan.primary crc32 diskGuid g (before.sizeBytes / sectorSize)⟩,
        ⟨g.entryLba.toNat * 512, plan.array.take (done * 512)⟩] before.bytes) :
    state.bytes.length = before.bytes.length ∧ HoldsPrimary crc32 plan diskGuid g state ∧
      slice state.bytes (g.entryLba.toNat * 512) g.arrayBytes.toNat =
        plan.array.take (done * 512) ++
          (slice before.bytes (g.entryLba.toNat * 512) g.arrayBytes.toNat).drop (done * 512) ∧
      ∀ start len, g.entryLba.toNat * 512 + g.arrayBytes.toNat ≤ start →
        slice state.bytes start len = slice before.bytes start len := by
  have room := accepted.usableOn.room
  have lba := accepted.usableOn.wellShaped.lba_ge
  have bytes := g.arrayBytes_le
  have lba0 := accepted.length_lba0
  have header : (plan.primary crc32 diskGuid g (before.sizeBytes / sectorSize)).length = 512 :=
    length_buildHeader crc32
  have partLength : (plan.array.take (done * 512)).length = done * 512 := by
    rw [List.length_take, length_plan_array accepted]
    omega
  have inside : ∀ write ∈ [(⟨0, plan.lba0⟩ : Write UInt8),
      ⟨512, plan.primary crc32 diskGuid g (before.sizeBytes / sectorSize)⟩,
      ⟨g.entryLba.toNat * 512, plan.array.take (done * 512)⟩],
      write.Inside before.bytes.length := by
    simp only [List.forall_mem_cons, List.not_mem_nil, false_imp_iff, implies_true, and_true,
      Write.Inside]
    omega
  have length : state.bytes.length = before.bytes.length := by
    rw [reached, length_applyAll inside]
  refine ⟨length, ?_, ?_, ?_⟩
  · unfold HoldsPrimary
    have held := slice_applyAll_written [⟨0, plan.lba0⟩]
      ⟨512, plan.primary crc32 diskGuid g (before.sizeBytes / sectorSize)⟩
      [⟨g.entryLba.toNat * 512, plan.array.take (done * 512)⟩] inside (by
        simp only [List.mem_singleton, forall_eq, Write.Disjoint]
        omega)
    rw [reached, sizeBytes_eq length]
    simp only [header] at held
    exact held
  · have frontInside : ∀ write ∈ [(⟨0, plan.lba0⟩ : Write UInt8),
        ⟨512, plan.primary crc32 diskGuid g (before.sizeBytes / sectorSize)⟩],
        write.Inside before.bytes.length := by
      simp only [List.forall_mem_cons, List.not_mem_nil, false_imp_iff, implies_true, and_true,
        Write.Inside]
      omega
    have front : slice (applyAll [⟨0, plan.lba0⟩,
        ⟨512, plan.primary crc32 diskGuid g (before.sizeBytes / sectorSize)⟩] before.bytes)
        (g.entryLba.toNat * 512) g.arrayBytes.toNat =
        slice before.bytes (g.entryLba.toNat * 512) g.arrayBytes.toNat := by
      apply slice_applyAll_disjoint frontInside
      simp only [List.forall_mem_cons, List.not_mem_nil, false_imp_iff, implies_true, and_true]
      omega
    have frontLength := length_applyAll frontInside
    rw [reached]
    change slice (splice (applyAll [⟨0, plan.lba0⟩,
      ⟨512, plan.primary crc32 diskGuid g (before.sizeBytes / sectorSize)⟩] before.bytes)
      (g.entryLba.toNat * 512) (plan.array.take (done * 512))) _ _ = _
    rw [slice_splice_around (by omega) (Nat.le_refl _) (by omega), front, Nat.sub_self,
      splice_zero, partLength]
  · intro start len past
    rw [reached, slice_applyAll_disjoint inside]
    simp only [List.forall_mem_cons, List.not_mem_nil, false_imp_iff, implies_true, and_true]
    omega

/-- Once the primary array is written the new primary copy is whole. -/
theorem holds_of_written {rest : List (Write UInt8)}
    (later : ∀ write ∈ rest, write.Inside before.bytes.length ∧
      g.entryLba.toNat * 512 + g.arrayBytes.toNat ≤ write.offset)
    (reached : state.bytes = applyAll
      (⟨0, plan.lba0⟩ :: ⟨512, plan.primary crc32 diskGuid g (before.sizeBytes / sectorSize)⟩ ::
        ⟨g.entryLba.toNat * 512, plan.array⟩ :: rest) before.bytes) :
    state.bytes.length = before.bytes.length ∧ HoldsPrimary crc32 plan diskGuid g state ∧
      HoldsArray plan g state := by
  have room := accepted.usableOn.room
  have lba := accepted.usableOn.wellShaped.lba_ge
  have bytes := g.arrayBytes_le
  have lba0 := accepted.length_lba0
  have array := length_plan_array accepted
  have header : (plan.primary crc32 diskGuid g (before.sizeBytes / sectorSize)).length = 512 :=
    length_buildHeader crc32
  have inside : ∀ write ∈ (⟨0, plan.lba0⟩ : Write UInt8) ::
      ⟨512, plan.primary crc32 diskGuid g (before.sizeBytes / sectorSize)⟩ ::
      ⟨g.entryLba.toNat * 512, plan.array⟩ :: rest, write.Inside before.bytes.length := by
    simp only [List.forall_mem_cons, Write.Inside]
    refine ⟨by omega, by omega, by omega, fun write member => (later write member).1⟩
  have length : state.bytes.length = before.bytes.length := by
    rw [reached, length_applyAll inside]
  refine ⟨length, ?_, ?_⟩
  · have held := slice_applyAll_written [⟨0, plan.lba0⟩]
      ⟨512, plan.primary crc32 diskGuid g (before.sizeBytes / sectorSize)⟩
      (⟨g.entryLba.toNat * 512, plan.array⟩ :: rest) inside (by
        simp only [List.forall_mem_cons, Write.Disjoint]
        refine ⟨by omega, fun write member => ?_⟩
        have := (later write member).2
        omega)
    unfold HoldsPrimary
    rw [reached, sizeBytes_eq length]
    simp only [header] at held
    exact held
  · have held := slice_applyAll_written [⟨0, plan.lba0⟩,
        ⟨512, plan.primary crc32 diskGuid g (before.sizeBytes / sectorSize)⟩]
      ⟨g.entryLba.toNat * 512, plan.array⟩ rest inside (by
        intro write member
        have := (later write member).2
        unfold Write.Disjoint
        simp only
        omega)
    unfold HoldsArray
    rw [reached]
    simp only [array] at held
    exact held

omit accepted in
theorem pieceCount_sector {offset : Nat} {data : List UInt8} (width : data.length = 512) :
    Write.pieceCount 512 ⟨offset, data⟩ = 1 := by
  simp [Write.pieceCount, width]

/-- The stage a commit is in when it stops: before the primary header, inside the
primary array, or past it. -/
theorem crash_stages {stopped : Nat}
    (crashed : state.bytes = crash 512
      (plan.writes crc32 diskGuid g (before.sizeBytes / sectorSize)) stopped before.bytes) :
    (state.bytes = before.bytes ∨ state.bytes = applyAll [⟨0, plan.lba0⟩] before.bytes) ∨
    (∃ done, done * 512 < g.arrayBytes.toNat ∧ state.bytes = applyAll
      [⟨0, plan.lba0⟩, ⟨512, plan.primary crc32 diskGuid g (before.sizeBytes / sectorSize)⟩,
        ⟨g.entryLba.toNat * 512, plan.array.take (done * 512)⟩] before.bytes) ∨
    ∃ rest, (∀ write ∈ rest, write.Inside before.bytes.length ∧
        g.entryLba.toNat * 512 + g.arrayBytes.toNat ≤ write.offset) ∧
      state.bytes = applyAll
        (⟨0, plan.lba0⟩ :: ⟨512, plan.primary crc32 diskGuid g
          (before.sizeBytes / sectorSize)⟩ ::
          ⟨g.entryLba.toNat * 512, plan.array⟩ :: rest) before.bytes := by
  have room := accepted.usableOn.room
  have bytes := g.arrayBytes_le
  have lba0 := accepted.length_lba0
  have array := length_plan_array accepted
  have header : (plan.primary crc32 diskGuid g (before.sizeBytes / sectorSize)).length = 512 :=
    length_buildHeader crc32
  have backup : (plan.backup crc32 diskGuid g (before.sizeBytes / sectorSize)).length = 512 :=
    length_buildHeader crc32
  have inside := writes_inside crc32 diskGuid accepted
  rw [writes_eq crc32 accepted] at crashed inside
  rcases crash_cases (by decide : 0 < 512) inside stopped with
    ⟨reached, current, done, found, bound, stage⟩ | whole
  · rw [stage] at crashed
    match reached with
    | 0 =>
        cases found
        rw [pieceCount_sector lba0, Nat.lt_one_iff] at bound
        subst bound
        exact .inl (.inl (by simpa [reachedWrites, Write.apply] using crashed))
    | 1 =>
        cases found
        rw [pieceCount_sector header, Nat.lt_one_iff] at bound
        subst bound
        exact .inl (.inr (by simpa [reachedWrites, Write.apply] using crashed))
    | 2 =>
        cases found
        refine .inr (.inl ⟨done, ?_, crashed⟩)
        simp only [Write.pieceCount, array] at bound
        omega
    | 3 =>
        cases found
        refine .inr (.inr ⟨[⟨(before.bytes.length / 512 - 1 - g.arraySectors.toNat) * 512,
          plan.array.take (done * 512)⟩], ?_, crashed⟩)
        simp only [List.mem_singleton, forall_eq, Write.Inside, List.length_take]
        omega
    | 4 =>
        cases found
        refine .inr (.inr ⟨[⟨(before.bytes.length / 512 - 1 - g.arraySectors.toNat) * 512,
          plan.array⟩, ⟨(before.bytes.length / 512 - 1) * 512, (plan.backup crc32 diskGuid g
            (before.sizeBytes / sectorSize)).take (done * 512)⟩], ?_, crashed⟩)
        simp only [List.forall_mem_cons, List.not_mem_nil, false_imp_iff, implies_true,
          and_true, Write.Inside, List.length_take]
        omega
    | other + 5 => cases found
  · rw [whole] at crashed
    refine .inr (.inr ⟨_, ?_, crashed⟩)
    simp only [List.forall_mem_cons, List.not_mem_nil, false_imp_iff, implies_true, and_true,
      Write.Inside]
    omega

end Interrupted

/-! ## Crash consistency -/

/-- The sum tells the new array from every mixture of its first sectors with the rest
of the old array. -/
def Distinguishes (crc32 : List UInt8 → UInt32) (old new : List UInt8) : Prop :=
  ∀ sectors, new.take (sectors * 512) ++ old.drop (sectors * 512) ≠ new →
    crc32 (new.take (sectors * 512) ++ old.drop (sectors * 512)) ≠ crc32 new

/-- A commit over a table of the same geometry that stops after any number of its
sectors leaves a device that is read as the old table or as the new one. -/
theorem probe_interrupted_writeGpt (crc32 : List UInt8 → UInt32)
    {dev before after state : ByteDevice} {g : GptGeometry}
    {oldPartitions newPartitions : List Partition} {oldGuid newGuid : Guid}
    {oldTails newTails : EntryTails} {oldLba0 newLba0 : List ReservedEntry}
    {oldSlots newSlots : List UInt32} {writes : List (Write UInt8)} {stopped : Nat}
    (first : (writeGptAssigningSlots crc32 oldPartitions oldGuid g oldTails oldLba0).exec dev =
      (.ok oldSlots, before))
    (second : (writeGptAssigningSlots crc32 newPartitions newGuid g newTails newLba0).exec
      before = (.ok newSlots, after))
    (distinguishes : Distinguishes crc32
      (slice before.bytes (g.entryLba.toNat * 512) g.arrayBytes.toNat)
      (slice after.bytes (g.entryLba.toNat * 512) g.arrayBytes.toNat))
    (issued : after.journal = before.journal ++ writes)
    (crashed : state.bytes = crash 512 writes stopped before.bytes) :
    ∃ old new, probe crc32 before = .ok (.gpt, old) ∧ probe crc32 after = .ok (.gpt, new) ∧
      ∃ source, probeWithStatus crc32 state = .ok (.gpt, old, source) ∨
        probeWithStatus crc32 state = .ok (.gpt, new, source) := by
  obtain ⟨oldPlan, oldAccepted, rfl, rfl⟩ := plan_of_writeGpt crc32 first
  obtain ⟨newPlan, newAccepted, rfl, rfl⟩ := plan_of_writeGpt crc32 second
  have oldLength := length_committed crc32 oldGuid oldAccepted
  have room := oldAccepted.usableOn.room
  have lba := oldAccepted.usableOn.wellShaped.lba_ge
  have bytes := g.arrayBytes_le
  cases List.append_cancel_left issued
  refine ⟨_, _, (probe_committed crc32 oldGuid oldAccepted).1,
    (probe_committed crc32 newGuid newAccepted).1, ?_⟩
  rcases crash_stages crc32 newAccepted crashed with early | ⟨done, bound, middle⟩ |
    ⟨rest, later, late⟩
  · obtain ⟨length, same⟩ := slice_of_lba0 newAccepted early
    have primary : HoldsPrimary crc32 oldPlan oldGuid g state := by
      unfold HoldsPrimary
      rw [same 512 512 (by omega), slice_committed_primary, sizeBytes_eq (length.trans oldLength)]
    have array : HoldsArray oldPlan g state := by
      unfold HoldsArray
      rw [same _ _ (by omega), slice_committed_array]
    obtain ⟨source, probed⟩ :=
      probeWithStatus_of_holds crc32 oldAccepted (length.trans oldLength) primary array
    exact ⟨source, .inl probed⟩
  · obtain ⟨length, primary, mixed, same⟩ := slice_of_array crc32 newAccepted bound middle
    have oldArray := slice_committed_array crc32 oldGuid oldAccepted
    have newArray := slice_committed_array crc32 newGuid newAccepted
    rw [oldArray, newArray] at distinguishes
    rw [oldArray] at mixed
    by_cases complete : newPlan.array.take (done * 512) ++ oldPlan.array.drop (done * 512) =
        newPlan.array
    · obtain ⟨source, probed⟩ := probeWithStatus_of_holds crc32 newAccepted length primary
        (mixed.trans complete)
      exact ⟨source, .inr probed⟩
    · have backup : HoldsBackup crc32 oldPlan oldGuid g state := by
        have whole := holdsBackup_committed crc32 oldGuid oldAccepted
        refine ⟨?_, ?_⟩
        · rw [length, oldLength, same _ _ (by omega)]
          have array := whole.array
          rwa [oldLength] at array
        · rw [length, oldLength, same _ _ (by omega), sizeBytes_eq (length.trans oldLength)]
          have header := whole.header
          rwa [oldLength, sizeBytes_eq oldLength] at header
      refine ⟨.recoveredFromBackup, .inl (probeWithStatus_of_damaged crc32 newAccepted oldAccepted
        length (length.trans oldLength) primary ?_ backup)⟩
      rw [mixed]
      exact distinguishes done complete
  · obtain ⟨length, primary, array⟩ := holds_of_written crc32 newAccepted later late
    obtain ⟨source, probed⟩ := probeWithStatus_of_holds crc32 newAccepted length primary array
    exact ⟨source, .inr probed⟩

/-- The small partition under another type. -/
def retypedPartition : Partition :=
  { smallPartition with kind := .gpt ⟨3 :: List.replicate 15 1, by simp⟩ 0 }

theorem distinguishes_retypedPartition :
    Distinguishes CyclicSums.ieee (seatedArray smallGeometry (fun _ => none) [(smallPartition, 0)])
      (seatedArray smallGeometry (fun _ => none) [(retypedPartition, 0)]) := by
  have oldArray : seatedArray smallGeometry (fun _ => none) [(smallPartition, 0)] =
      [] ++ 1 :: (seatedArray smallGeometry (fun _ => none) [(smallPartition, 0)]).tail := by
    decide +kernel
  have newArray : seatedArray smallGeometry (fun _ => none) [(retypedPartition, 0)] =
      [] ++ 3 :: (seatedArray smallGeometry (fun _ => none) [(smallPartition, 0)]).tail := by
    decide +kernel
  have newLength : (seatedArray smallGeometry (fun _ => none)
      [(retypedPartition, 0)]).length = 128 := length_seatedArray (by decide) _ _
  have oldLength : (seatedArray smallGeometry (fun _ => none)
      [(smallPartition, 0)]).length = 128 := length_seatedArray (by decide) _ _
  intro sectors mixed
  cases sectors with
  | zero =>
      rw [Nat.zero_mul, List.take_zero, List.drop_zero, List.nil_append, oldArray, newArray]
      exact CyclicSums.ieee_ne_of_byte (by decide) _ _
  | succ sectors =>
      rw [List.take_of_length_le (by omega), List.drop_eq_nil_of_le (by omega)] at mixed
      exact absurd (List.append_nil _) mixed

/-- The partition of the small disk is given another type, and the commit is stopped
anywhere. -/
theorem probe_interrupted_retypedPartition :
    ∃ before after writes,
      (writeGptAssigningSlots CyclicSums.ieee [smallPartition] unusedTypeGuid smallGeometry
        (fun _ => none) []).exec eightSectors = (.ok [0], before) ∧
      (writeGptAssigningSlots CyclicSums.ieee [retypedPartition] unusedTypeGuid smallGeometry
        (fun _ => none) []).exec before = (.ok [0], after) ∧
      after.journal = before.journal ++ writes ∧
      ∀ (state : ByteDevice) (stopped : Nat),
        state.bytes = crash 512 writes stopped before.bytes →
          ∃ parts source, probeWithStatus CyclicSums.ieee state = .ok (.gpt, parts, source) := by
  obtain ⟨before, first⟩ := exists_writeGpt CyclicSums.ieee unusedTypeGuid gptPlan_eightSectors
  obtain ⟨plan, accepted, _, same⟩ := plan_of_writeGpt CyclicSums.ieee first
  have writable : before.writable = eightSectors.writable := by
    rw [same]
    rfl
  have size : before.sizeBytes = eightSectors.sizeBytes := by
    rw [same, sizeBytes_eq (length_committed CyclicSums.ieee unusedTypeGuid accepted)]
  have planned : (gptPlan before [retypedPartition] smallGeometry (fun _ => none) []).map
      GptPlan.slots = .ok [0] := by
    rw [gptPlan_congr writable size _ _ _ (.inl rfl)]
    decide +kernel
  obtain ⟨after, second⟩ := exists_writeGpt CyclicSums.ieee unusedTypeGuid planned
  obtain ⟨newPlan, newAccepted, _, newSame⟩ := plan_of_writeGpt CyclicSums.ieee second
  refine ⟨before, after, _, first, second, by rw [newSame]; rfl, ?_⟩
  intro state stopped crashed
  obtain ⟨old, new, _, _, source, probed | probed⟩ :=
    probe_interrupted_writeGpt CyclicSums.ieee first second (by
      rw [array_of_writeGpt CyclicSums.ieee first, array_of_writeGpt CyclicSums.ieee second]
      exact distinguishes_retypedPartition) (by rw [newSame]; rfl) crashed
  · exact ⟨old, source, probed⟩
  · exact ⟨new, source, probed⟩

end DiskPartitions
