import DiskPartitions.ReorderedArrays
import DiskPartitions.TrappingSuperblocks
import DiskPartitions.ZonedArrays

/-!
# Assembly in words

Assembly computes sizes in words.  Most of its sums and products are checked or bounded by
what they are made of; the zones of a RAID0 and the chunks of a RAID10 are neither, and
assembly traps when they leave a word.
-/

namespace DiskPartitions

open Refusals TrappingWords

/-! ## The levels -/

/-- The next member of a linear array. -/
def appendLinearTrapping (chunk : Nat) (zones : List Zone × Nat) (member : Nat × Member) :
    Trapping MdError (List Zone × Nat) := do
  let (built, start) := zones
  let (slot, m) := member
  let len ← if chunk = 0 then word (some m.dataSize) else word (fit (m.dataSize / chunk * chunk))
  exact (refuseIf (2 ^ 64 ≤ start + len) (.corrupt 0 "array size overflows"))
  exact (.ok (built ++ [{ start, len, devStart := 0, slots := [slot] }], start + len))

def linearGeometryTrapping (lead : MdSuperblock) (slots : List (Option Member)) :
    Trapping MdError Geometry := do
  exact (needMembers lead.level slots lead.raidDisks)
  let members := slots.zipIdx.filterMap fun (m, slot) => m.map fun m => (slot, m)
  let (zones, size) ← members.foldlM (appendLinearTrapping lead.chunkBytes) ([], 0)
  exact (.ok { size, zones, raid10 := none })

/-- The next zone of a RAID0, none of whose numbers is checked. -/
def nextZoneTrapping (sizes : List Nat) (zones : List Zone × Nat × Nat) (finish : Nat) :
    Option (List Zone × Nat × Nat) := do
  let (built, start, prev) := zones
  let slots := (List.range sizes.length).filter fun slot => finish ≤ sizes.getD slot 0
  let depth ← if prev ≤ finish then some (finish - prev) else none
  let len ← fit (depth * slots.length)
  let next ← fit (start + len)
  return (built ++ [{ start, len, devStart := prev, slots }], next, finish)

def raid0ZonesTrapping (sizes : List Nat) : Option (List Zone) := do
  let ends := ((sizes.filter fun size => 0 < size).mergeSort).destutter (· ≠ ·)
  let (zones, _) ← ends.foldlM (nextZoneTrapping sizes) ([], 0, 0)
  return zones

/-- A sum, one summand after the other. -/
def sumTrapping (lens : List Nat) : Option Nat :=
  lens.foldlM (fun total len => fit (total + len)) 0

def raid0GeometryTrapping (lead : MdSuperblock) (slots : List (Option Member)) :
    Trapping MdError Geometry := do
  exact (needMembers lead.level slots lead.raidDisks)
  exact (needsChunk lead.chunkBytes)
  let sizes ← word ((slots.filterMap id).mapM fun m =>
    fit (m.dataSize / lead.chunkBytes * lead.chunkBytes))
  let zones ← word (raid0ZonesTrapping sizes)
  exact (refuseIf (1 < zones.length ∧ lead.layout ≠ raid0LayoutAlternate ∧
    lead.layout ≠ raid0LayoutOriginal)
    (.unsupported s!"multi-zone RAID0 with layout {lead.layout}"))
  let size ← word (sumTrapping (zones.map Zone.len))
  exact (.ok { size, zones, raid10 := none })

/-- The slot and row of one copy. -/
def Raid10.copyTrapping (geo : Raid10) (d c i k : Nat) : Option (Nat × Nat) := do
  let early ← fit (c * geo.near)
  let place ← fit (early + i)
  let shift ← fit (k * geo.near)
  let slot ← fit (place % d + shift)
  let down ← fit (if geo.offset then place / d * geo.far else place / d)
  let further ← fit (if geo.offset then k else k * geo.stride)
  let row ← fit (down + further)
  return (slot % d, row)

def Raid10.copiesTrapping (geo : Raid10) (d c : Nat) : Option (List (Nat × Nat)) := do
  let rows ← (List.range geo.near).mapM fun i =>
    (List.range geo.far).mapM fun k => geo.copyTrapping d c i k
  return rows.flatten

def requireCopiesTrapping (geo : Raid10) (d : Nat) (slots : List (Option Member)) :
    List Nat → Trapping MdError Unit
  | [] => exact (.ok ())
  | c :: rest => do
      let copies ← word (geo.copiesTrapping d c)
      exact (refuseIf (∀ place ∈ copies, (slots.getD place.1 none).isNone)
        (.noCopyLeft (copies.map Prod.fst)))
      requireCopiesTrapping geo d slots rest

def raid10GeometryTrapping (lead : MdSuperblock) (slots : List (Option Member)) :
    Trapping MdError Geometry := do
  exact (needsChunk lead.chunkBytes)
  exact (refuseIf (2 ^ 17 ≤ lead.layout) (.unsupported s!"RAID10 layout {hex lead.layout}"))
  let near := lead.layout % 256
  let far := lead.layout / 256 % 256
  let d := lead.raidDisks
  let copies ← word (fit (near * far))
  exact (refuseIf (near = 0 ∨ far = 0 ∨ d < copies)
    (.corrupt 0 s!"RAID10 layout {hex lead.layout} over {lead.raidDisks} members"))
  let devChunks := lead.componentSize / lead.chunkBytes
  let geo : Raid10 :=
    { near, far, offset := lead.layout &&& raid10Offset != 0, stride := devChunks / far }
  requireCopiesTrapping geo d slots (List.range d)
  -- this product is not checked, the next one is
  let rows ← word (fit (devChunks / far * d))
  let chunks := rows / near
  exact (refuseIf (2 ^ 64 ≤ chunks * lead.chunkBytes) (.corrupt 0 "array size overflows"))
  exact (.ok { size := chunks * lead.chunkBytes, zones := [], raid10 := some geo })

def parityGeometryTrapping (lead : MdSuperblock) (slots : List (Option Member)) :
    Trapping MdError Geometry := do
  exact (needsChunk lead.chunkBytes)
  let n := lead.raidDisks
  let parity := if lead.level = levelRaid6 then 2 else 1
  exact (refuseIf (n ≤ parity) (.corrupt 0 s!"RAID{lead.level} with {n} members"))
  exact (refuseIf (lead.level = levelRaid6 ∧ ¬ raid6LayoutKnown lead.layout)
    (.unsupported s!"RAID6 layout {lead.layout}"))
  exact (refuseIf (lead.level = levelRaid5 ∧ layoutParityLast < lead.layout)
    (.unsupported s!"RAID5 layout {lead.layout}"))
  exact (needMembers lead.level slots (n - parity))
  let rounded ← word (fit (lead.componentSize / lead.chunkBytes * lead.chunkBytes))
  exact (refuseIf (2 ^ 64 ≤ rounded * (n - parity)) (.corrupt 0 "array size overflows"))
  exact (.ok { size := rounded * (n - parity), zones := [], raid10 := none })

def levelGeometryTrapping (lead : MdSuperblock) (slots : List (Option Member)) :
    Trapping MdError Geometry :=
  if lead.level = levelLinear then linearGeometryTrapping lead slots
  else if lead.level = levelRaid1 then exact (raid1Geometry lead slots)
  else if lead.level = levelRaid0 then raid0GeometryTrapping lead slots
  else if lead.level = levelRaid10 then raid10GeometryTrapping lead slots
  else if lead.level = levelRaid4 ∨ lead.level = levelRaid5 ∨ lead.level = levelRaid6 then
    parityGeometryTrapping lead slots
  else exact (.error (.unsupported s!"RAID level {lead.level}"))

/-! ## Assembly -/

def readMembersTrapping (devices : List BlockRead) :
    Trapping MdError (List (Nat × BlockRead × MdSuperblock)) :=
  devices.zipIdx.mapM fun (dev, member) => do
    let found ← readSuperblockOfTrapping dev member
    let sb ← exact (orRefuse found (.noSuperblock member))
    exact (.ok (member, dev, sb))

/-- Assemble an array; a sum or product that leaves its word traps. -/
def assembleTrapping (devices : List BlockRead) : Trapping MdError MdArray := do
  exact (refuseIf (devices = []) .empty)
  let found ← readMembersTrapping devices
  let lead ← exact (leadOf found)
  exact (refuseIf (lead.featureMap &&& featureReshapeActive ≠ 0)
    (.unsupported "the array is mid-reshape"))
  let n := lead.raidDisks
  exact (refuseIf (n = 0 ∨ v1MaxDev < n) (.corrupt 0 s!"raid_disks {n}"))
  let slots ← exact (found.foldlM (placeMember n lead.events) (List.replicate n none))
  let geometry ← levelGeometryTrapping lead slots
  exact (refuseIf (∃ m ∈ slots.filterMap id,
      m.dev.sizeBytes.toNat < m.dataOffset + memberSpan lead geometry.size)
    (.corrupt 0 "a member is shorter than the array needs"))
  exact (.ok {
    slots
    level := lead.level
    layout := lead.layout
    chunk := lead.chunkBytes
    size := geometry.size
    zones := geometry.zones
    raid10 := geometry.raid10
    superblock := lead })

/-- The superblock that speaks for the array, and the members in their slots. -/
def gathered (devices : List BlockRead) : Except MdError (MdSuperblock × List (Option Member)) := do
  refuseIf (devices = []) .empty
  let found ← readMembers devices
  let lead ← leadOf found
  refuseIf (lead.featureMap &&& featureReshapeActive ≠ 0)
    (.unsupported "the array is mid-reshape")
  let n := lead.raidDisks
  refuseIf (n = 0 ∨ v1MaxDev < n) (.corrupt 0 s!"raid_disks {n}")
  let slots ← found.foldlM (placeMember n lead.events) (List.replicate n none)
  .ok (lead, slots)

def finishArrayTrapping (lead : MdSuperblock) (slots : List (Option Member)) :
    Trapping MdError MdArray := do
  let geometry ← levelGeometryTrapping lead slots
  exact (refuseIf (∃ m ∈ slots.filterMap id,
      m.dev.sizeBytes.toNat < m.dataOffset + memberSpan lead geometry.size)
    (.corrupt 0 "a member is shorter than the array needs"))
  exact (.ok {
    slots
    level := lead.level
    layout := lead.layout
    chunk := lead.chunkBytes
    size := geometry.size
    zones := geometry.zones
    raid10 := geometry.raid10
    superblock := lead })

theorem readMembersTrapping_eq (devices : List BlockRead) :
    readMembersTrapping devices = exact (readMembers devices) := by
  unfold readMembersTrapping readMembers
  apply exact_mapM
  rintro ⟨dev, member⟩ _
  refine exact_bind (readSuperblockOfTrapping_eq dev member) fun found _ => ?_
  exact exact_bind rfl fun sb _ => rfl

/-- Assembly places the members and goes by what was placed. -/
theorem assemble_eq (devices : List BlockRead) :
    assemble devices = gathered devices >>= fun placed => finishArray placed.1 placed.2 := by
  unfold assemble gathered
  simp only [assembleFound_eq, bind_assoc, ok_bind]
  rfl

theorem assembleTrapping_eq (devices : List BlockRead) :
    assembleTrapping devices =
      exact (gathered devices) >>= fun placed => finishArrayTrapping placed.1 placed.2 := by
  unfold assembleTrapping gathered
  simp only [readMembersTrapping_eq, exact_bind_eq, bind_assoc, exact_ok_bind]
  rfl

/-! ## RAID0 -/

section Zones

variable {sizes ends : List Nat} {start prev : Nat}

theorem nextZoneTrapping_eq (built : List Zone) {finish : Nat} (above : prev ≤ finish)
    (fits : start + (finish - prev) * (reach sizes finish).length < 2 ^ 64) :
    nextZoneTrapping sizes (built, start, prev) finish =
      some (nextZone sizes (built, start, prev) finish) := by
  have length : (reach sizes finish).length =
      ((List.range sizes.length).filter fun slot => finish ≤ sizes.getD slot 0).length := rfl
  unfold nextZoneTrapping nextZone
  dsimp only
  rw [← length, if_pos above, Option.bind_eq_bind, Option.bind_some, fit_of_lt (by omega),
    Option.bind_some, fit_of_lt fits, Nat.mod_eq_of_lt (by omega), Nat.mod_eq_of_lt fits]
  rfl

theorem nextZoneTrapping_none (built : List Zone) {finish : Nat} (above : prev ≤ finish)
    (large : 2 ^ 64 ≤ start + (finish - prev) * (reach sizes finish).length) :
    nextZoneTrapping sizes (built, start, prev) finish = none := by
  have length : (reach sizes finish).length =
      ((List.range sizes.length).filter fun slot => finish ≤ sizes.getD slot 0).length := rfl
  unfold nextZoneTrapping
  dsimp only
  rw [← length, if_pos above, Option.bind_eq_bind, Option.bind_some]
  by_cases long : (finish - prev) * (reach sizes finish).length < 2 ^ 64
  · rw [fit_of_lt long, Option.bind_some, fit_of_le large, Option.bind_none]
  · rw [fit_of_le (Nat.le_of_not_lt long), Option.bind_none]

/-- The zones are worked out as long as they stay in a word. -/
theorem foldlM_nextZone (ladder : Ladder sizes prev ends) (built : List Zone)
    (fits : start + (sizes.map (· - prev)).sum < 2 ^ 64) :
    ends.foldlM (nextZoneTrapping sizes) (built, start, prev) =
      some (ends.foldl (nextZone sizes) (built, start, prev)) := by
  induction ends generalizing start prev built with
  | nil => rfl
  | cons finish ends ih =>
      have above := sum_past ladder.prev_lt fun size member => ladder.none_between member
      rw [← length_reach] at above
      have short : start + (finish - prev) * (reach sizes finish).length < 2 ^ 64 := by omega
      rw [List.foldlM_cons, nextZoneTrapping_eq built (Nat.le_of_lt ladder.prev_lt) short,
        Option.bind_eq_bind, Option.bind_some, List.foldl_cons, nextZone_of_lt built short]
      exact ih ladder.next _ (by omega)

/-- Zones that leave a word are not got past. -/
theorem foldlM_nextZone_none (ladder : Ladder sizes prev ends) (built : List Zone)
    (begins : start < 2 ^ 64) (large : 2 ^ 64 ≤ start + (sizes.map (· - prev)).sum) :
    ends.foldlM (nextZoneTrapping sizes) (built, start, prev) = none := by
  induction ends generalizing start prev built with
  | nil =>
      rw [ladder.sum_past_last] at large
      omega
  | cons finish ends ih =>
      have above := sum_past ladder.prev_lt fun size member => ladder.none_between member
      have order := Nat.le_of_lt ladder.prev_lt
      rw [← length_reach] at above
      rw [List.foldlM_cons]
      by_cases far : start + (finish - prev) * (reach sizes finish).length < 2 ^ 64
      · rw [nextZoneTrapping_eq built order far, nextZone_of_lt built far, Option.bind_eq_bind,
          Option.bind_some]
        exact ih ladder.next _ far (by omega)
      · rw [nextZoneTrapping_none built order (Nat.le_of_not_lt far)]
        rfl

end Zones

theorem sumTrapping_eq {lens : List Nat} (fits : lens.sum < 2 ^ 64) :
    sumTrapping lens = some lens.sum := by
  have each : ∀ total, total + lens.sum < 2 ^ 64 →
      lens.foldlM (fun total len => fit (total + len)) total = some (total + lens.sum) := by
    induction lens with
    | nil => exact fun total _ => rfl
    | cons len lens ih =>
        intro total small
        rw [List.sum_cons] at small fits ⊢
        rw [List.foldlM_cons, fit_of_lt (by omega), Option.bind_eq_bind, Option.bind_some,
          ih (by omega) _ (by omega), Nat.add_assoc]
  unfold sumTrapping
  rw [each 0 (by omega), Nat.zero_add]

/-- The sizes a RAID0 stripes over. -/
def roundedSizes (lead : MdSuperblock) (slots : List (Option Member)) : List Nat :=
  (slots.filterMap id).map fun m => m.dataSize / lead.chunkBytes * lead.chunkBytes

/-- A RAID0 gets as far as its zones. -/
def raid0Checks (lead : MdSuperblock) (slots : List (Option Member)) : Except MdError Unit := do
  needMembers lead.level slots lead.raidDisks
  needsChunk lead.chunkBytes

section Raid0

variable {lead : MdSuperblock} {slots : List (Option Member)}

theorem sum_len_raid0Zones {sizes : List Nat} (fits : sizes.sum < 2 ^ 64) :
    ((raid0Zones sizes).map Zone.len).sum = sizes.sum := by
  have ladder := ladder_ends sizes
  have plain : sizes.map (· - 0) = sizes := by simp
  unfold raid0Zones
  dsimp only
  rw [foldl_nextZone ladder [] (by rw [plain]; omega), List.nil_append, sum_len_zonesFrom ladder,
    plain]

theorem raid0ZonesTrapping_eq {sizes : List Nat} (fits : sizes.sum < 2 ^ 64) :
    raid0ZonesTrapping sizes = some (raid0Zones sizes) := by
  have plain : sizes.map (· - 0) = sizes := by simp
  unfold raid0ZonesTrapping raid0Zones
  dsimp only
  rw [foldlM_nextZone (ladder_ends sizes) [] (by rw [plain]; omega)]
  rfl

theorem raid0ZonesTrapping_none {sizes : List Nat} (large : 2 ^ 64 ≤ sizes.sum) :
    raid0ZonesTrapping sizes = none := by
  have plain : sizes.map (· - 0) = sizes := by simp
  unfold raid0ZonesTrapping
  dsimp only
  rw [foldlM_nextZone_none (ladder_ends sizes) [] (by decide) (by rw [plain]; omega)]
  rfl

/-- Rounding down to the chunk stays in a word. -/
theorem mapM_rounded (lead : MdSuperblock) (small : ∀ m ∈ slots.filterMap id, m.dataSize < 2 ^ 64) :
    ((slots.filterMap id).mapM fun m => fit (m.dataSize / lead.chunkBytes * lead.chunkBytes)) =
      some (roundedSizes lead slots) := by
  refine mapM_eq_some fun m member => fit_of_lt ?_
  exact Nat.lt_of_le_of_lt (Nat.div_mul_le_self _ _) (small m member)

theorem raid0GeometryTrapping_eq (small : ∀ m ∈ slots.filterMap id, m.dataSize < 2 ^ 64)
    (fits : raid0Checks lead slots = .ok () → (roundedSizes lead slots).sum < 2 ^ 64) :
    raid0GeometryTrapping lead slots = exact (raid0Geometry lead slots) := by
  unfold raid0GeometryTrapping raid0Geometry
  refine exact_bind rfl fun _ enough => exact_bind rfl fun _ chunked => ?_
  have total := fits (by
    unfold raid0Checks
    rw [enough, ok_bind]
    exact chunked)
  rw [word_bind (mapM_rounded lead small), word_bind (raid0ZonesTrapping_eq total)]
  have sizes : ((slots.filterMap id).map fun m =>
      m.dataSize / lead.chunkBytes * lead.chunkBytes) = roundedSizes lead slots := rfl
  dsimp only
  rw [sizes]
  refine exact_bind rfl fun _ _ => ?_
  have sum := sum_len_raid0Zones total
  have small : ((raid0Zones (roundedSizes lead slots)).map Zone.len).sum < 2 ^ 64 := by
    rw [sum]
    exact total
  rw [word_bind (sumTrapping_eq small), Nat.mod_eq_of_lt small]

theorem raid0GeometryTrapping_trap (small : ∀ m ∈ slots.filterMap id, m.dataSize < 2 ^ 64)
    (checked : raid0Checks lead slots = .ok ())
    (large : 2 ^ 64 ≤ (roundedSizes lead slots).sum) :
    raid0GeometryTrapping lead slots = trap := by
  obtain ⟨_, enough, chunked⟩ := bind_eq_ok.mp checked
  unfold raid0GeometryTrapping
  rw [enough, exact_ok_bind, chunked, exact_ok_bind, word_bind (mapM_rounded lead small),
    word_none_bind (raid0ZonesTrapping_none large)]

end Raid0

/-! ## RAID10 -/

section Raid10

variable {lead : MdSuperblock} {slots : List (Option Member)}

/-- Where a copy is, is worked out in words. -/
theorem copyTrapping_eq {geo : Raid10} {d c i k : Nat} (members : d ≤ v1MaxDev)
    (near : geo.near < 256) (far : geo.far < 256) (stride : geo.far * geo.stride < 2 ^ 63)
    (chunk : c < d) (side : i < geo.near) (below : k < geo.far) :
    geo.copyTrapping d c i k = some (((c * geo.near + i) % d + k * geo.near) % d,
      if geo.offset then (c * geo.near + i) / d * geo.far + k
      else (c * geo.near + i) / d + k * geo.stride) := by
  have limit : v1MaxDev = 1920 := rfl
  have early : c * geo.near ≤ 1920 * 256 := Nat.mul_le_mul (by omega) (by omega)
  have place : (c * geo.near + i) % d < d := Nat.mod_lt _ (by omega)
  have shift : k * geo.near ≤ 256 * 256 := Nat.mul_le_mul (by omega) (by omega)
  have row : (c * geo.near + i) / d ≤ c * geo.near + i := Nat.div_le_self _ _
  have down : (c * geo.near + i) / d * geo.far ≤ (1920 * 256 + 256) * 256 :=
    Nat.mul_le_mul (by omega) (by omega)
  have further : k * geo.stride ≤ geo.far * geo.stride :=
    Nat.mul_le_mul_right _ (Nat.le_of_lt below)
  unfold Raid10.copyTrapping
  rw [fit_of_lt (by omega), Option.bind_eq_bind, Option.bind_some, fit_of_lt (by omega),
    Option.bind_some, fit_of_lt (by omega), Option.bind_some, fit_of_lt (by omega),
    Option.bind_some]
  cases geo.offset with
  | true =>
      rw [if_pos rfl, if_pos rfl, if_pos rfl, fit_of_lt (by omega), Option.bind_some,
        fit_of_lt (by omega), Option.bind_some, fit_of_lt (by omega)]
      rfl
  | false =>
      rw [if_neg (by simp), if_neg (by simp), if_neg (by simp), fit_of_lt (by omega),
        Option.bind_some, fit_of_lt (by omega), Option.bind_some, fit_of_lt (by omega)]
      rfl

theorem copiesTrapping_eq {geo : Raid10} {d c : Nat} (members : d ≤ v1MaxDev)
    (near : geo.near < 256) (far : geo.far < 256) (stride : geo.far * geo.stride < 2 ^ 63)
    (chunk : c < d) : geo.copiesTrapping d c = some (geo.copies d c) := by
  have rows : ((List.range geo.near).mapM fun i =>
      (List.range geo.far).mapM fun k => geo.copyTrapping d c i k) =
      some ((List.range geo.near).map fun i => (List.range geo.far).map fun k =>
        (((c * geo.near + i) % d + k * geo.near) % d,
          if geo.offset then (c * geo.near + i) / d * geo.far + k
          else (c * geo.near + i) / d + k * geo.stride)) := by
    refine mapM_eq_some fun i side => mapM_eq_some fun k below => ?_
    exact copyTrapping_eq members near far stride chunk (List.mem_range.mp side)
      (List.mem_range.mp below)
  unfold Raid10.copiesTrapping Raid10.copies
  rw [rows, List.flatMap_def]
  rfl

theorem requireCopiesTrapping_eq {geo : Raid10} {d : Nat} (members : d ≤ v1MaxDev)
    (near : geo.near < 256) (far : geo.far < 256) (stride : geo.far * geo.stride < 2 ^ 63)
    {chunks : List Nat} (inside : ∀ c ∈ chunks, c < d) :
    requireCopiesTrapping geo d slots chunks = exact (requireCopies geo d slots chunks) := by
  induction chunks with
  | nil => rfl
  | cons c rest ih =>
      rw [requireCopiesTrapping, requireCopies,
        word_bind (copiesTrapping_eq members near far stride (inside c (by simp)))]
      refine exact_bind rfl fun _ _ => ?_
      exact ih fun other member => inside other (by simp [member])

/-- The layout of a RAID10, out of its superblock. -/
def raid10Of (lead : MdSuperblock) : Raid10 where
  near := lead.layout % 256
  far := lead.layout / 256 % 256
  offset := lead.layout &&& raid10Offset != 0
  stride := lead.componentSize / lead.chunkBytes / (lead.layout / 256 % 256)

/-- A RAID10 gets as far as its size. -/
def raid10Checks (lead : MdSuperblock) (slots : List (Option Member)) : Except MdError Unit := do
  needsChunk lead.chunkBytes
  refuseIf (2 ^ 17 ≤ lead.layout) (.unsupported s!"RAID10 layout {hex lead.layout}")
  refuseIf (lead.layout % 256 = 0 ∨ lead.layout / 256 % 256 = 0 ∨
      lead.raidDisks < lead.layout % 256 * (lead.layout / 256 % 256))
    (.corrupt 0 s!"RAID10 layout {hex lead.layout} over {lead.raidDisks} members")
  requireCopies (raid10Of lead) lead.raidDisks slots (List.range lead.raidDisks)

/-- The chunks of a RAID10, each counted once for each copy side by side. -/
def nearChunks (lead : MdSuperblock) : Nat :=
  lead.componentSize / lead.chunkBytes / (lead.layout / 256 % 256) * lead.raidDisks

theorem raid10Geometry_eq (lead : MdSuperblock) (slots : List (Option Member)) :
    raid10Geometry lead slots = (raid10Checks lead slots >>= fun _ => do
      refuseIf (2 ^ 64 ≤ nearChunks lead % 2 ^ 64 / (lead.layout % 256) * lead.chunkBytes)
        (.corrupt 0 "array size overflows")
      .ok { size := nearChunks lead % 2 ^ 64 / (lead.layout % 256) * lead.chunkBytes, zones := [],
            raid10 := some (raid10Of lead) }) := by
  unfold raid10Checks
  simp only [bind_assoc]
  rfl

theorem raid10GeometryTrapping_bind (component : lead.componentSize < 2 ^ 64)
    (members : lead.raidDisks ≤ v1MaxDev) :
    raid10GeometryTrapping lead slots = (exact (raid10Checks lead slots) >>= fun _ => do
      let rows ← word (fit (nearChunks lead))
      exact (refuseIf (2 ^ 64 ≤ rows / (lead.layout % 256) * lead.chunkBytes)
        (.corrupt 0 "array size overflows"))
      exact (.ok { size := rows / (lead.layout % 256) * lead.chunkBytes, zones := [],
                   raid10 := some (raid10Of lead) })) := by
  have near : lead.layout % 256 < 256 := Nat.mod_lt _ (by decide)
  have far : lead.layout / 256 % 256 < 256 := Nat.mod_lt _ (by decide)
  have product : lead.layout % 256 * (lead.layout / 256 % 256) ≤ 256 * 256 :=
    Nat.mul_le_mul (by omega) (by omega)
  unfold raid10GeometryTrapping raid10Checks needsChunk
  simp only [exact_bind_eq, bind_assoc]
  by_cases chunked : lead.chunkBytes = 0 ∨ lead.chunkBytes % mdSector ≠ 0
  · rw [refuseIf, if_pos chunked, exact_error_bind, exact_error_bind]
  · have sector : 512 ≤ lead.chunkBytes := by
      rw [not_or, not_not, mdSector] at chunked
      omega
    have stride : (raid10Of lead).far * (raid10Of lead).stride < 2 ^ 63 := by
      have most : lead.componentSize / lead.chunkBytes ≤ lead.componentSize / 512 :=
        Nat.div_le_div_left sector (by decide)
      have whole := Nat.mul_div_le (lead.componentSize / lead.chunkBytes)
        (lead.layout / 256 % 256)
      change lead.layout / 256 % 256 *
        (lead.componentSize / lead.chunkBytes / (lead.layout / 256 % 256)) < 2 ^ 63
      omega
    rw [refuseIf_of_not chunked, exact_ok_bind, exact_ok_bind, fit_bind (by omega),
      show (⟨lead.layout % 256, lead.layout / 256 % 256, lead.layout &&& raid10Offset != 0,
        lead.componentSize / lead.chunkBytes / (lead.layout / 256 % 256)⟩ : Raid10) =
        raid10Of lead from rfl,
      @requireCopiesTrapping_eq slots (raid10Of lead) _ members near far stride _ fun c =>
        List.mem_range.mp]
    rfl

theorem raid10GeometryTrapping_eq (component : lead.componentSize < 2 ^ 64)
    (members : lead.raidDisks ≤ v1MaxDev)
    (fits : raid10Checks lead slots = .ok () → nearChunks lead < 2 ^ 64) :
    raid10GeometryTrapping lead slots = exact (raid10Geometry lead slots) := by
  rw [raid10GeometryTrapping_bind component members, raid10Geometry_eq]
  refine exact_bind rfl fun _ checked => ?_
  have small := fits checked
  rw [fit_bind small, Nat.mod_eq_of_lt small]
  exact exact_bind rfl fun _ _ => rfl

theorem raid10GeometryTrapping_trap (component : lead.componentSize < 2 ^ 64)
    (members : lead.raidDisks ≤ v1MaxDev) (checked : raid10Checks lead slots = .ok ())
    (large : 2 ^ 64 ≤ nearChunks lead) : raid10GeometryTrapping lead slots = trap := by
  rw [raid10GeometryTrapping_bind component members, checked, exact_ok_bind,
    word_none_bind (fit_of_le large)]

end Raid10

/-! ## The other levels -/

section Levels

variable {lead : MdSuperblock} {slots : List (Option Member)}

theorem linearGeometryTrapping_eq (small : ∀ m ∈ slots.filterMap id, m.dataSize < 2 ^ 64) :
    linearGeometryTrapping lead slots = exact (linearGeometry lead slots) := by
  unfold linearGeometryTrapping linearGeometry
  refine exact_bind rfl fun _ _ => ?_
  dsimp only
  refine exact_bind (exact_foldlM ?_ _) fun zones _ => rfl
  rintro ⟨built, start⟩ ⟨slot, m⟩ member
  obtain ⟨⟨held, other⟩, listed, own⟩ := List.mem_filterMap.mp member
  have present : m ∈ slots.filterMap id := by
    obtain ⟨found, rfl, same⟩ := Option.map_eq_some_iff.mp own
    cases same
    exact List.mem_filterMap.mpr ⟨_, List.fst_mem_of_mem_zipIdx listed, rfl⟩
  have rounded := Nat.lt_of_le_of_lt (Nat.div_mul_le_self m.dataSize lead.chunkBytes)
    (small m present)
  unfold appendLinearTrapping appendLinear
  dsimp only
  by_cases whole : lead.chunkBytes = 0
  · rw [if_pos whole, if_pos whole, word_bind rfl]
    exact exact_bind rfl fun _ _ => rfl
  · rw [if_neg whole, if_neg whole, fit_bind rounded]
    exact exact_bind rfl fun _ _ => rfl

theorem parityGeometryTrapping_eq (component : lead.componentSize < 2 ^ 64) :
    parityGeometryTrapping lead slots = exact (parityGeometry lead slots) := by
  have rounded := Nat.lt_of_le_of_lt (Nat.div_mul_le_self lead.componentSize lead.chunkBytes)
    component
  unfold parityGeometryTrapping parityGeometry
  refine exact_bind rfl fun _ _ => exact_bind rfl fun _ _ => exact_bind rfl fun _ _ => ?_
  refine exact_bind rfl fun _ _ => exact_bind rfl fun _ _ => ?_
  rw [fit_bind rounded]
  exact exact_bind rfl fun _ _ => rfl

/-- What a RAID0 and a RAID10 count stays in a word, when they get as far as counting. -/
structure LevelFits (lead : MdSuperblock) (slots : List (Option Member)) : Prop where
  raid0 : lead.level = levelRaid0 → raid0Checks lead slots = .ok () →
    (roundedSizes lead slots).sum < 2 ^ 64
  raid10 : lead.level = levelRaid10 → raid10Checks lead slots = .ok () →
    nearChunks lead < 2 ^ 64

/-- The lead and the members of an array that can be assembled in words. -/
structure Gathered (lead : MdSuperblock) (slots : List (Option Member)) : Prop where
  component : lead.componentSize < 2 ^ 64
  disks : lead.raidDisks ≤ v1MaxDev
  sizes : ∀ m ∈ slots.filterMap id, m.dataSize < 2 ^ 64

theorem levelGeometryTrapping_eq (gathered : Gathered lead slots) (fits : LevelFits lead slots) :
    levelGeometryTrapping lead slots = exact (levelGeometry lead slots) := by
  unfold levelGeometryTrapping levelGeometry
  by_cases linear : lead.level = levelLinear
  · rw [if_pos linear, if_pos linear]
    exact linearGeometryTrapping_eq gathered.sizes
  · rw [if_neg linear, if_neg linear]
    by_cases raid1 : lead.level = levelRaid1
    · rw [if_pos raid1, if_pos raid1]
    · rw [if_neg raid1, if_neg raid1]
      by_cases raid0 : lead.level = levelRaid0
      · rw [if_pos raid0, if_pos raid0]
        exact raid0GeometryTrapping_eq gathered.sizes (fits.raid0 raid0)
      · rw [if_neg raid0, if_neg raid0]
        by_cases raid10 : lead.level = levelRaid10
        · rw [if_pos raid10, if_pos raid10]
          exact raid10GeometryTrapping_eq gathered.component gathered.disks (fits.raid10 raid10)
        · rw [if_neg raid10, if_neg raid10]
          split
          next => exact parityGeometryTrapping_eq gathered.component
          next => rfl

/-- A level whose counts leave a word traps. -/
theorem levelGeometryTrapping_trap (gathered : Gathered lead slots)
    (unfit : ¬ LevelFits lead slots) : levelGeometryTrapping lead slots = trap := by
  by_cases raid0 : lead.level = levelRaid0 ∧ raid0Checks lead slots = .ok () ∧
      2 ^ 64 ≤ (roundedSizes lead slots).sum
  · obtain ⟨level, checked, large⟩ := raid0
    unfold levelGeometryTrapping
    rw [level, if_neg (by decide), if_neg (by decide), if_pos rfl]
    exact raid0GeometryTrapping_trap gathered.sizes checked large
  · by_cases raid10 : lead.level = levelRaid10 ∧ raid10Checks lead slots = .ok () ∧
        2 ^ 64 ≤ nearChunks lead
    · obtain ⟨level, checked, large⟩ := raid10
      unfold levelGeometryTrapping
      rw [level, if_neg (by decide), if_neg (by decide), if_neg (by decide), if_pos rfl]
      exact raid10GeometryTrapping_trap gathered.component gathered.disks checked large
    · refine absurd ⟨fun level checked => ?_, fun level checked => ?_⟩ unfit
      · by_contra large
        exact raid0 ⟨level, checked, Nat.le_of_not_lt large⟩
      · by_contra large
        exact raid10 ⟨level, checked, Nat.le_of_not_lt large⟩

end Levels

end DiskPartitions
