import DiskPartitions.LegacyMembers
import DiskPartitions.TrappingAssembly

/-!
# The sizes of assembled arrays

The size of an array over the integers, level by level.  Assembly reports it or refuses one
that does not fit a word, except at RAID0, where the members' sizes are added without a check,
and at RAID10, where one of two products is not checked.
-/

namespace DiskPartitions

open Refusals TrappingWords

/-! ## Sizes over the integers -/

/-- A member's data area, rounded down to the chunk when there is one. -/
def roundedSize (lead : MdSuperblock) (m : Member) : Nat :=
  if lead.chunkBytes = 0 then m.dataSize else m.dataSize / lead.chunkBytes * lead.chunkBytes

/-- The size of an array as an unbounded integer. -/
def arraySize (lead : MdSuperblock) (slots : List (Option Member)) : Nat :=
  let n := lead.raidDisks
  if lead.level = levelLinear then ((slots.filterMap id).map (roundedSize lead)).sum
  else if lead.level = levelRaid1 then lead.componentSize
  else if lead.level = levelRaid0 then
    ((slots.filterMap id).map fun m => m.dataSize / lead.chunkBytes * lead.chunkBytes).sum
  else if lead.level = levelRaid10 then
    lead.componentSize / lead.chunkBytes / (lead.layout / 256 % 256) * n / (lead.layout % 256) *
      lead.chunkBytes
  else
    lead.componentSize / lead.chunkBytes * lead.chunkBytes *
      (n - if lead.level = levelRaid6 then 2 else 1)

/-- The checks a level makes before it knows its size. -/
def levelChecks (lead : MdSuperblock) (slots : List (Option Member)) : Except MdError Unit :=
  if lead.level = levelLinear then needMembers lead.level slots lead.raidDisks
  else if lead.level = levelRaid1 then needMembers lead.level slots 1
  else if lead.level = levelRaid0 then raid0Checks lead slots
  else if lead.level = levelRaid10 then raid10Checks lead slots
  else if lead.level = levelRaid4 ∨ lead.level = levelRaid5 ∨ lead.level = levelRaid6 then do
    needsChunk lead.chunkBytes
    let n := lead.raidDisks
    let parity := if lead.level = levelRaid6 then 2 else 1
    refuseIf (n ≤ parity) (.corrupt 0 s!"RAID{lead.level} with {n} members")
    refuseIf (lead.level = levelRaid6 ∧ ¬ raid6LayoutKnown lead.layout)
      (.unsupported s!"RAID6 layout {lead.layout}")
    refuseIf (lead.level = levelRaid5 ∧ layoutParityLast < lead.layout)
      (.unsupported s!"RAID5 layout {lead.layout}")
    needMembers lead.level slots (n - parity)
  else .error (.unsupported s!"RAID level {lead.level}")

/-- Assembly computes sizes exactly: no sum or product leaves its word, the size that is
reported is the size over the integers, and a size that does not fit a word is refused. -/
structure SizesExactly (devices : List BlockRead) : Prop where
  safe : assembleTrapping devices = exact (assemble devices)
  size : ∀ array, assemble devices = .ok array →
    array.size = arraySize array.superblock array.slots
  refused : ∀ lead slots, gathered devices = .ok (lead, slots) →
    levelChecks lead slots = .ok () → 2 ^ 64 ≤ arraySize lead slots →
      assemble devices = .error (.corrupt 0 "array size overflows")

/-- Whenever a RAID0 or a RAID10 gets as far as its size, what it counts stays in a word. -/
def SizesFit (devices : List BlockRead) : Prop :=
  ∀ lead slots, gathered devices = .ok (lead, slots) → LevelFits lead slots

/-! ## Linear arrays -/

section Linear

variable {chunk start : Nat}

/-- The members of a linear array are added up, or refused. -/
theorem appendLinear_sized (members : List (Nat × Member)) (built : List Zone)
    (begins : start < 2 ^ 64) :
    (start + (members.map fun member =>
        if chunk = 0 then member.2.dataSize else member.2.dataSize / chunk * chunk).sum < 2 ^ 64 →
      ∃ zones, members.foldlM (appendLinear chunk) (built, start) =
        .ok (zones, start + (members.map fun member =>
          if chunk = 0 then member.2.dataSize else member.2.dataSize / chunk * chunk).sum)) ∧
    (2 ^ 64 ≤ start + (members.map fun member =>
        if chunk = 0 then member.2.dataSize else member.2.dataSize / chunk * chunk).sum →
      members.foldlM (appendLinear chunk) (built, start) =
        .error (.corrupt 0 "array size overflows")) := by
  induction members generalizing start built with
  | nil =>
      rw [List.map_nil, List.sum_nil, Nat.add_zero]
      exact ⟨fun _ => ⟨built, rfl⟩, fun large => absurd large (Nat.not_le.mpr begins)⟩
  | cons member members ih =>
      obtain ⟨slot, m⟩ := member
      rw [List.map_cons, List.sum_cons, List.foldlM_cons, ← Nat.add_assoc]
      unfold appendLinear
      dsimp only
      by_cases far : 2 ^ 64 ≤ start + if chunk = 0 then m.dataSize else m.dataSize / chunk * chunk
      · rw [refuseIf, if_pos far]
        exact ⟨fun fits => absurd fits (by omega), fun _ => rfl⟩
      · rw [refuseIf_of_not far, ok_bind, ok_bind]
        exact ih _ (Nat.lt_of_not_le far)

end Linear

/-- The members of slots, with or without their numbers. -/
theorem map_numbered (slots : List (Option Member)) (size : Member → Nat) :
    ((slots.zipIdx.filterMap fun (m, slot) => m.map fun m => (slot, m)).map
        fun member => size member.2) = (slots.filterMap id).map size := by
  have dropped : ∀ first, ((slots.zipIdx first).filterMap fun (m, slot) =>
      m.map fun m => (slot, m)).map (fun member => size member.2) =
        (slots.filterMap id).map size := by
    induction slots with
    | nil => exact fun _ => rfl
    | cons slot slots ih =>
        intro first
        rw [List.zipIdx_cons]
        cases slot with
        | none => exact ih (first + 1)
        | some m => exact congrArg (List.cons (size m)) (ih (first + 1))
  exact dropped 0

/-! ## Every level -/

section Levels

variable {lead : MdSuperblock} {slots : List (Option Member)}

theorem linearGeometry_sized (checked : needMembers lead.level slots lead.raidDisks = .ok ()) :
    (((slots.filterMap id).map (roundedSize lead)).sum < 2 ^ 64 →
      ∃ zones, linearGeometry lead slots =
        .ok ⟨((slots.filterMap id).map (roundedSize lead)).sum, zones, none⟩) ∧
    (2 ^ 64 ≤ ((slots.filterMap id).map (roundedSize lead)).sum →
      linearGeometry lead slots = .error (.corrupt 0 "array size overflows")) := by
  have sized := @appendLinear_sized lead.chunkBytes 0
    (slots.zipIdx.filterMap fun (m, slot) => m.map fun m => (slot, m)) [] (by decide)
  have same := map_numbered slots (roundedSize lead)
  unfold roundedSize at same
  rw [same, Nat.zero_add] at sized
  unfold linearGeometry
  rw [checked, ok_bind]
  dsimp only
  constructor
  · intro fits
    obtain ⟨zones, built⟩ := sized.1 fits
    rw [built]
    exact ⟨zones, rfl⟩
  · intro large
    rw [sized.2 large]
    rfl

theorem raid0Geometry_size (fits : raid0Checks lead slots = .ok () →
      (roundedSizes lead slots).sum < 2 ^ 64) {geometry : Geometry}
    (shaped : raid0Geometry lead slots = .ok geometry) :
    geometry.size = (roundedSizes lead slots).sum := by
  unfold raid0Geometry at shaped
  obtain ⟨_, enough, shaped⟩ := bind_eq_ok.mp shaped
  obtain ⟨_, chunked, shaped⟩ := bind_eq_ok.mp shaped
  obtain ⟨_, shaped⟩ := refuseIf_bind_eq_ok.mp shaped
  have total := fits (by
    unfold raid0Checks
    rw [enough, ok_bind]
    exact chunked)
  cases shaped
  change ((raid0Zones (roundedSizes lead slots)).map Zone.len).sum % 2 ^ 64 = _
  rw [sum_len_raid0Zones total, Nat.mod_eq_of_lt total]

/-- A RAID10 that fits reports its size or refuses it. -/
theorem raid10Geometry_of_lt (checked : raid10Checks lead slots = .ok ())
    (small : nearChunks lead < 2 ^ 64) :
    raid10Geometry lead slots = (do
      refuseIf (2 ^ 64 ≤ nearChunks lead / (lead.layout % 256) * lead.chunkBytes)
        (.corrupt 0 "array size overflows")
      .ok { size := nearChunks lead / (lead.layout % 256) * lead.chunkBytes, zones := [],
            raid10 := some (raid10Of lead) }) := by
  rw [raid10Geometry_eq, checked, ok_bind, Nat.mod_eq_of_lt small]

/-- The size over the integers is the one that is reported. -/
theorem size_of_levelGeometry (fits : LevelFits lead slots) {geometry : Geometry}
    (shaped : levelGeometry lead slots = .ok geometry) : geometry.size = arraySize lead slots := by
  unfold levelGeometry at shaped
  unfold arraySize
  dsimp only
  by_cases linear : lead.level = levelLinear
  · rw [if_pos linear] at shaped ⊢
    obtain ⟨_, enough, _⟩ := bind_eq_ok.mp shaped
    obtain ⟨reported, refused⟩ := linearGeometry_sized enough
    by_cases large : 2 ^ 64 ≤ ((slots.filterMap id).map (roundedSize lead)).sum
    · rw [refused large] at shaped
      cases shaped
    · obtain ⟨zones, same⟩ := reported (Nat.lt_of_not_le large)
      rw [same] at shaped
      cases shaped
      rfl
  · rw [if_neg linear] at shaped ⊢
    by_cases raid1 : lead.level = levelRaid1
    · rw [if_pos raid1] at shaped ⊢
      obtain ⟨_, _, shaped⟩ := bind_eq_ok.mp shaped
      cases shaped
      rfl
    · rw [if_neg raid1] at shaped ⊢
      by_cases raid0 : lead.level = levelRaid0
      · rw [if_pos raid0] at shaped ⊢
        exact raid0Geometry_size (fits.raid0 raid0) shaped
      · rw [if_neg raid0] at shaped ⊢
        by_cases raid10 : lead.level = levelRaid10
        · rw [if_pos raid10] at shaped ⊢
          have split := shaped
          rw [raid10Geometry_eq] at split
          obtain ⟨_, checked, _⟩ := bind_eq_ok.mp split
          rw [raid10Geometry_of_lt checked (fits.raid10 raid10 checked)] at shaped
          obtain ⟨_, shaped⟩ := refuseIf_bind_eq_ok.mp shaped
          cases shaped
          rfl
        · rw [if_neg raid10] at shaped ⊢
          split at shaped
          next =>
            obtain ⟨_, _, shaped⟩ := bind_eq_ok.mp shaped
            obtain ⟨_, shaped⟩ := refuseIf_bind_eq_ok.mp shaped
            obtain ⟨_, shaped⟩ := refuseIf_bind_eq_ok.mp shaped
            obtain ⟨_, shaped⟩ := refuseIf_bind_eq_ok.mp shaped
            obtain ⟨_, _, shaped⟩ := bind_eq_ok.mp shaped
            obtain ⟨_, shaped⟩ := refuseIf_bind_eq_ok.mp shaped
            cases shaped
            rfl
          next => cases shaped

/-- A size that does not fit a word is refused as soon as the level's other checks pass. -/
theorem levelGeometry_refused (held : Gathered lead slots) (fits : LevelFits lead slots)
    (checked : levelChecks lead slots = .ok ()) (large : 2 ^ 64 ≤ arraySize lead slots) :
    levelGeometry lead slots = .error (.corrupt 0 "array size overflows") := by
  unfold levelChecks at checked
  unfold arraySize at large
  unfold levelGeometry
  dsimp only at large
  by_cases linear : lead.level = levelLinear
  · rw [if_pos linear] at checked large ⊢
    exact (linearGeometry_sized checked).2 large
  · rw [if_neg linear] at checked large ⊢
    by_cases raid1 : lead.level = levelRaid1
    · rw [if_pos raid1] at large
      exact absurd held.component (Nat.not_lt.mpr large)
    · rw [if_neg raid1] at checked large ⊢
      by_cases raid0 : lead.level = levelRaid0
      · rw [if_pos raid0] at checked large
        exact absurd (fits.raid0 raid0 checked) (Nat.not_lt.mpr large)
      · rw [if_neg raid0] at checked large ⊢
        by_cases raid10 : lead.level = levelRaid10
        · rw [if_pos raid10] at checked large ⊢
          rw [raid10Geometry_of_lt checked (fits.raid10 raid10 checked), refuseIf]
          exact congrArg (· >>= fun _ => _) (if_pos large)
        · rw [if_neg raid10] at checked large ⊢
          split at checked
          next parity =>
            obtain ⟨_, chunked, checked⟩ := bind_eq_ok.mp checked
            obtain ⟨several, checked⟩ := refuseIf_bind_eq_ok.mp checked
            obtain ⟨known, checked⟩ := refuseIf_bind_eq_ok.mp checked
            obtain ⟨placed, enough⟩ := refuseIf_bind_eq_ok.mp checked
            rw [if_pos parity]
            unfold parityGeometry
            dsimp only
            rw [chunked, ok_bind, refuseIf_of_not several, ok_bind, refuseIf_of_not known, ok_bind,
              refuseIf_of_not placed, ok_bind, enough, ok_bind, refuseIf, if_pos large]
            rfl
          next => cases checked

end Levels

/-! ## Assembly -/

/-- What fits a word is what the slots hold. -/
theorem placeMember_sizes {n newest : Nat} {slots placed : List (Option Member)}
    {found : Nat × BlockRead × MdSuperblock} (own : found.2.2.dataSize < 2 ^ 64)
    (sizes : ∀ m ∈ slots.filterMap id, m.dataSize < 2 ^ 64)
    (done : placeMember n newest slots found = .ok placed) :
    ∀ m ∈ placed.filterMap id, m.dataSize < 2 ^ 64 := by
  unfold placeMember at done
  dsimp only at done
  split at done
  next =>
    split at done
    next =>
      cases done
      exact sizes
    next =>
      split at done
      next =>
        cases done
        exact sizes
      next =>
        obtain ⟨_, done⟩ := refuseIf_bind_eq_ok.mp done
        cases done
        intro m member
        obtain ⟨slot, listed, same⟩ := List.mem_filterMap.mp member
        rcases List.mem_or_eq_of_mem_set listed with before | rfl
        · exact sizes m (List.mem_filterMap.mpr ⟨slot, before, same⟩)
        · cases same
          exact own
  next =>
    cases done
    exact sizes

/-- What assembly gathers fits words. -/
theorem gathered_bounds {devices : List BlockRead} {lead : MdSuperblock}
    {slots : List (Option Member)} (found : gathered devices = .ok (lead, slots)) :
    Gathered lead slots := by
  unfold gathered at found
  obtain ⟨_, found⟩ := refuseIf_bind_eq_ok.mp found
  obtain ⟨members, read, found⟩ := bind_eq_ok.mp found
  obtain ⟨newest, led, found⟩ := bind_eq_ok.mp found
  obtain ⟨_, found⟩ := refuseIf_bind_eq_ok.mp found
  obtain ⟨counted, found⟩ := refuseIf_bind_eq_ok.mp found
  obtain ⟨placed, filled, found⟩ := bind_eq_ok.mp found
  cases found
  have inWords : ∀ sb, Carried devices sb → sb.InWords := by
    rintro sb ⟨dev, _, carries⟩
    exact inWords_of_readSuperblockOf ((superblockOf_eq_some 0).mp carries)
  constructor
  · exact (inWords lead (carriedNewest_of_leadOf read led).1).component
  · exact Nat.le_of_not_lt fun many => counted (.inr many)
  · have kept := @foldlM_invariant MdError _ _ _
      (fun slots : List (Option Member) => ∀ m ∈ slots.filterMap id, m.dataSize < 2 ^ 64) _
      (fun member listed state next sizes step => placeMember_sizes
        (inWords _ ((carried_iff read).mpr (List.mem_map_of_mem listed))).dataSize sizes step)
      (List.replicate lead.raidDisks none) slots (by simp) filled
    exact kept

theorem finishArrayTrapping_eq {lead : MdSuperblock} {slots : List (Option Member)}
    (held : Gathered lead slots) (fits : LevelFits lead slots) :
    finishArrayTrapping lead slots = exact (finishArray lead slots) := by
  unfold finishArrayTrapping finishArray
  refine exact_bind (levelGeometryTrapping_eq held fits) fun geometry _ => ?_
  exact exact_bind rfl fun _ _ => rfl

/-- Assembly computes sizes exactly if and only if no RAID0 that passes its checks has data areas,
rounded down to the chunk, that add up to a word's range, and no RAID10 that passes its checks
has so many chunks with their copies side by side. -/
theorem sizesExactly_iff (devices : List BlockRead) : SizesExactly devices ↔ SizesFit devices := by
  constructor
  · intro exactly lead slots found
    by_contra unfit
    have safe := exactly.safe
    rw [assembleTrapping_eq, found, exact_ok_bind] at safe
    unfold finishArrayTrapping at safe
    rw [levelGeometryTrapping_trap (gathered_bounds found) unfit, trap_bind] at safe
    exact exact_ne_trap _ safe.symm
  · intro fits
    constructor
    · rw [assembleTrapping_eq, assemble_eq]
      refine exact_bind rfl ?_
      rintro ⟨lead, slots⟩ found
      exact finishArrayTrapping_eq (gathered_bounds found) (fits lead slots found)
    · intro array assembled
      rw [assemble_eq] at assembled
      obtain ⟨⟨lead, slots⟩, found, finished⟩ := bind_eq_ok.mp assembled
      unfold finishArray at finished
      obtain ⟨geometry, shaped, finished⟩ := bind_eq_ok.mp finished
      obtain ⟨_, finished⟩ := refuseIf_bind_eq_ok.mp finished
      cases finished
      exact size_of_levelGeometry (fits lead slots found) shaped
    · intro lead slots found checked large
      have refused := levelGeometry_refused (gathered_bounds found) (fits lead slots found)
        checked large
      rw [assemble_eq, found, ok_bind, finishArray, refused]
      rfl

/-! ## Two members of eight exbibytes -/

/-- A byte of a large device: zeros, then the words of the superblock. -/
def vastByte (slot place : Nat) : UInt8 :=
  if place < 2 ^ 63 then 0 else legacyByte (raid0Words slot) (fun _ => 0) (place - 2 ^ 63 + 65536)

def vastMember (slot : Nat) : BlockRead where
  sizeBytes := 9223372036854841344
  readAt offset len :=
    if offset + len ≤ 9223372036854841344 then
      .ok (BufferedReads.buffer len fun j => vastByte slot (offset + j))
    else .error (.shortRead offset len (9223372036854841344 - offset))
  length_readAt := by
    intro offset len bytes read
    split at read
    · cases read
      exact BufferedReads.length_buffer len _
    · cases read

/-- The superblock that is found in the last 64 KiB. -/
def vastSuperblock (slot : Nat) : MdSuperblock :=
  { (raid0Words slot).superblock with superblockOffset := 2 ^ 63, dataSize := 2 ^ 63 }

/-- A 0.90 superblock says the same further back, where there is more room before it. -/
theorem parseV0_moved {buf : List UInt8} {place further member : Nat} {sb : MdSuperblock}
    (parsed : parseV0 buf place member = .ok (some sb)) (after : place ≤ further) :
    parseV0 buf further member =
      .ok (some { sb with superblockOffset := further, dataSize := further }) := by
  unfold parseV0 at parsed ⊢
  dsimp only at parsed ⊢
  split at parsed
  next => cases parsed
  next genuine =>
    obtain ⟨room, parsed⟩ := refuseIf_bind_eq_ok.mp parsed
    cases parsed
    rw [if_neg genuine, refuseIf_of_not (by omega), ok_bind]

theorem readMd_vastMember (slot : Nat) {offset len : Nat}
    (inside : offset + len ≤ 9223372036854841344) :
    (vastMember slot).readMd offset len =
      .ok (BufferedReads.buffer len fun j => vastByte slot (offset + j)) := by
  unfold BlockRead.readMd vastMember
  dsimp only
  rw [if_pos inside]
  rfl

/-- Where a 1.x superblock could be there are zeros. -/
theorem vastByte_zero (slot : Nat) {place j : Nat}
    (either : place = 0 ∨ place = 4096 ∨ place = 9223372036854833152) (within : j < 4) :
    vastByte slot (place + j) = 0 := by
  unfold vastByte
  rcases either with rfl | rfl | rfl
  · rw [if_pos (by omega)]
  · rw [if_pos (by omega)]
  · have word : (9223372036854833152 + j - 2 ^ 63 + 65536 - 65536) / 4 = 14336 := by omega
    have beyond : (raid0Words slot).word 14336 = 0 := rfl
    rw [if_neg (by omega), legacyByte, if_neg (by omega), word, beyond, Nat.zero_div]
    rfl

theorem firstV1_vastMember (slot member : Nat) :
    firstV1 (vastMember slot) member (v1Candidates (vastMember slot).sizeBytes.toNat) =
      .ok none := by
  have size : (vastMember slot).sizeBytes.toNat = 9223372036854841344 := rfl
  have skipped : ∀ place version rest,
      place = 0 ∨ place = 4096 ∨ place = 9223372036854833152 →
      firstV1 (vastMember slot) member ((place, version) :: rest) =
        firstV1 (vastMember slot) member rest := by
    intro place version rest either
    have inside : place + 4096 ≤ 9223372036854841344 := by omega
    have zeros : Slices.slice (BufferedReads.buffer 4096 fun j => vastByte slot (place + j)) 0 4 =
        BufferedReads.buffer 4 fun _ => 0 := by
      rw [BufferedReads.slice_buffer _ (by decide)]
      apply BufferedReads.buffer_congr
      intro j within
      rw [Nat.zero_add]
      exact vastByte_zero slot either within
    have other : LittleEndian.field
        (BufferedReads.buffer 4096 fun j => vastByte slot (place + j)) 0 4 ≠ mdMagic := by
      rw [LittleEndian.field, zeros]
      decide
    rw [firstV1, size, if_neg (by omega), readMd_vastMember slot inside, ok_bind, parseV1,
      if_pos (.inl other), ok_bind]
  have places : v1Candidates 9223372036854841344 =
      [(0, .v1_1), (4096, .v1_2), (9223372036854833152, .v1_0)] := by decide +kernel
  rw [size, places, skipped 0 _ _ (.inl rfl), skipped 4096 _ _ (.inr (.inl rfl)),
    skipped _ _ _ (.inr (.inr rfl))]
  rfl

theorem readSuperblockOf_vastMember {slot : Nat} (small : slot < 2) (member : Nat) :
    readSuperblockOf (vastMember slot) member = .ok (some (vastSuperblock slot)) := by
  have size : (vastMember slot).sizeBytes.toNat = 9223372036854841344 := rfl
  have place : 9223372036854841344 / v0Reserved * v0Reserved - v0Reserved = 2 ^ 63 := by
    decide +kernel
  have block : (BufferedReads.buffer v0Size fun j => vastByte slot (2 ^ 63 + j)) =
      legacyBlock (raid0Words slot) fun _ => 0 := by
    apply BufferedReads.buffer_congr
    intro j _
    unfold vastByte
    rw [if_neg (by omega), show 2 ^ 63 + j - 2 ^ 63 + 65536 = 65536 + j by omega]
  have parsed := parseV0_legacyBlock (raid0Words_fits small) (fun _ => 0) member
  unfold readSuperblockOf
  dsimp only
  rw [firstV1_vastMember, ok_bind]
  dsimp only
  rw [size, if_pos (by decide +kernel), place, readMd_vastMember slot (by decide +kernel), ok_bind,
    block]
  exact parseV0_moved parsed (by decide +kernel)

/-- The members in their slots. -/
def vastSlots : List (Option Member) :=
  [some { dev := vastMember 0, dataOffset := 0, dataSize := 2 ^ 63 },
    some { dev := vastMember 1, dataOffset := 0, dataSize := 2 ^ 63 }]

theorem gathered_vast :
    gathered [vastMember 0, vastMember 1] = .ok (vastSuperblock 0, vastSlots) := by
  have reads : ∀ entry ∈ [(vastMember 0, vastSuperblock 0), (vastMember 1, vastSuperblock 1)],
      ∀ member, readSuperblockOf entry.1 member = .ok (some entry.2) := by
    intro entry inside member
    simp only [List.mem_cons, List.not_mem_nil, or_false] at inside
    obtain rfl | rfl := inside
    · exact readSuperblockOf_vastMember (by decide) member
    · exact readSuperblockOf_vastMember (by decide) member
  have found := readMembers_eq reads
  simp only [List.map_cons, List.map_nil] at found
  unfold gathered
  rw [refuseIf_of_not (by simp), ok_bind, found, ok_bind]
  rfl

theorem raid0Zones_vast : raid0Zones [2 ^ 63, 2 ^ 63] = [⟨0, 0, 0, [0, 1]⟩] := by
  have sorted : ([2 ^ 63, 2 ^ 63].filter fun size => 0 < size).mergeSort = [2 ^ 63, 2 ^ 63] :=
    List.mergeSort_of_pairwise (by decide +kernel)
  unfold raid0Zones
  simp only [sorted]
  decide +kernel

/-- Where overflow is checked assembly traps, and where it is not the array has no bytes. -/
theorem not_sizesExactly_vast :
    assembleTrapping [vastMember 0, vastMember 1] = trap ∧
      (∃ array, assemble [vastMember 0, vastMember 1] = .ok array ∧ array.size = 0) ∧
      arraySize (vastSuperblock 0) vastSlots = 2 ^ 64 ∧
      ¬ SizesExactly [vastMember 0, vastMember 1] := by
  have checked : raid0Checks (vastSuperblock 0) vastSlots = .ok () := by decide +kernel
  have sizes : roundedSizes (vastSuperblock 0) vastSlots = [2 ^ 63, 2 ^ 63] := by decide +kernel
  have unfit : ¬ LevelFits (vastSuperblock 0) vastSlots := by
    intro fits
    have small := fits.raid0 rfl checked
    rw [sizes] at small
    exact absurd small (by decide +kernel)
  have trapped : assembleTrapping [vastMember 0, vastMember 1] = trap := by
    rw [assembleTrapping_eq, gathered_vast, exact_ok_bind, finishArrayTrapping,
      levelGeometryTrapping_trap (gathered_bounds gathered_vast) unfit, trap_bind]
  refine ⟨trapped, ?_, by decide +kernel, ?_⟩
  · have shaped : levelGeometry (vastSuperblock 0) vastSlots = .ok ⟨0, [⟨0, 0, 0, [0, 1]⟩], none⟩ := by
      change raid0Geometry _ _ = _
      unfold raid0Geometry needMembers needsChunk
      rw [refuseIf_of_not (by decide +kernel), ok_bind, refuseIf_of_not (by decide +kernel), ok_bind]
      unfold roundedSizes at sizes
      simp only [sizes, raid0Zones_vast]
      rfl
    have assembled : finishArray (vastSuperblock 0) vastSlots =
        .ok ⟨vastSlots, 0, 0, 1024, 0, [⟨0, 0, 0, [0, 1]⟩], none, vastSuperblock 0⟩ := by
      rw [finishArray, shaped, ok_bind, refuseIf_of_not (by decide +kernel), ok_bind]
      rfl
    rw [assemble_eq, gathered_vast, ok_bind]
    exact ⟨_, assembled, rfl⟩
  · intro exactly
    exact exact_ne_trap _ (exactly.safe.symm.trans trapped)

end DiskPartitions
