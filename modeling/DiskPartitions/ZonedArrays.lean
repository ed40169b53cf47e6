import DiskPartitions.AssembledArrays
import DiskPartitions.LegacyMembers
import DiskPartitions.Raid10Copies
import DiskPartitions.Tilings

/-!
# RAID0 and linear arrays

Members of different sizes make a RAID0 of several zones, each striped over the members
that reach that far; a linear array has a zone for each member.  Either way the zones
tile the array, and the byte of a position is a byte of one member's data area, a
different one for every position, until the areas are used up.
-/

namespace DiskPartitions

open Refusals BufferedReads Slices Tilings

/-! ## Where a byte is -/

namespace MdArray

/-- The bytes of a member's data area that the array uses. -/
def usable (array : MdArray) (m : Member) : Nat :=
  if array.chunk = 0 then m.dataSize else m.dataSize / array.chunk * array.chunk

/-- Where a read finds the byte `within` bytes into a zone: a slot, and a byte of that
member's data area. -/
def zonePlace (array : MdArray) (z : Zone) (within : Nat) : Nat × Nat :=
  if array.level = levelLinear then (z.slots.getD 0 0, z.devStart + within)
  else
    let k := z.slots.length
    let c := within / array.chunk
    let pick := if array.layout = raid0LayoutOriginal then (z.start + within) / array.chunk else c
    (z.slots.getD (pick % k) 0, z.devStart + c / k * array.chunk + within % array.chunk)

/-- How far a read goes on at once from `within` bytes into a zone. -/
def zoneRoom (array : MdArray) (z : Zone) (within : Nat) : Nat :=
  if array.level = levelLinear then z.len - within else array.chunk - within % array.chunk

/-- A zone as a run of positions with their places. -/
def zoneTile (array : MdArray) (z : Zone) : Tile (Nat × Nat) where
  start := z.start
  len := z.len
  place := array.zonePlace z

/-- Where a read finds the byte of a position. -/
def zonedPlace (array : MdArray) (pos : Nat) : Option (Nat × Nat) :=
  locate (array.zones.map array.zoneTile) pos

/-- A read looks the zone up, finds the first byte's place and goes on from there. -/
theorem readZoned_eq (array : MdArray) (pos left : Nat) :
    array.readZoned pos left =
      match array.zones.find? fun z => z.start ≤ pos ∧ pos < z.start + z.len with
      | none => .error (.custom "zones cover the array")
      | some z =>
          array.readPresent (array.zonePlace z (pos - z.start)).1
            (array.zonePlace z (pos - z.start)).2 (min (array.zoneRoom z (pos - z.start)) left) := by
  unfold readZoned
  cases found : array.zones.find? fun z => z.start ≤ pos ∧ pos < z.start + z.len with
  | none => rfl
  | some z =>
      have covers := List.find?_some found
      have starts : z.start + (pos - z.start) = pos := by
        have := decide_eq_true_iff.mp covers
        omega
      simp only [zonePlace, zoneRoom, starts]
      split
      · rfl
      · rfl

end MdArray

/-! ## What the zones of an array are -/

/-- The zones tile the array, and give every byte of the members' areas to one
position. -/
structure ZonedShape (array : MdArray) : Prop where
  tiles : Tiles (array.zones.map array.zoneTile) 0 array.size
  inside : ∀ z ∈ array.zones, ∀ within < z.len, ∃ m,
    array.slots[(array.zonePlace z within).1]? = some (some m) ∧
      (array.zonePlace z within).2 < array.usable m
  each : ∀ z ∈ array.zones, (array.zoneTile z).Injective
  apart : (array.zones.map array.zoneTile).Pairwise Tile.Apart
  onto : ∀ slot m, array.slots[slot]? = some (some m) → ∀ off < array.usable m,
    ∃ z ∈ array.zones, ∃ within < z.len, array.zonePlace z within = (slot, off)
  runs : ∀ z ∈ array.zones, ∀ within < z.len, 0 < array.zoneRoom z within ∧
    ∀ j < array.zoneRoom z within, within + j < z.len ∧
      array.zonePlace z (within + j) =
        ((array.zonePlace z within).1, (array.zonePlace z within).2 + j)

/-! ## The zones of a RAID0 -/

/-- The slots whose members reach `finish`. -/
def reach (sizes : List Nat) (finish : Nat) : List Nat :=
  (List.range sizes.length).filter fun slot => finish ≤ sizes.getD slot 0

theorem mem_reach {sizes : List Nat} {finish slot : Nat} :
    slot ∈ reach sizes finish ↔ slot < sizes.length ∧ finish ≤ sizes.getD slot 0 := by
  simp [reach]

theorem nodup_reach (sizes : List Nat) (finish : Nat) : (reach sizes finish).Nodup :=
  List.nodup_range.filter _

theorem length_reach (sizes : List Nat) (finish : Nat) :
    (reach sizes finish).length = sizes.countP (finish ≤ ·) := by
  have all : (List.range sizes.length).map (fun slot => sizes.getD slot 0) = sizes := by
    apply List.ext_getElem
    · simp
    · intro i first second
      simp [List.getD_eq_getElem?_getD, List.getElem?_eq_getElem second]
  conv_rhs => rw [← all, List.countP_map]
  rw [reach, List.countP_eq_length_filter]
  rfl

/-- The zones from `prev` on, without the word's range. -/
def zonesFrom (sizes : List Nat) : Nat → Nat → List Nat → List Zone
  | _, _, [] => []
  | start, prev, finish :: ends =>
      { start, len := (finish - prev) * (reach sizes finish).length, devStart := prev,
        slots := reach sizes finish } ::
      zonesFrom sizes (start + (finish - prev) * (reach sizes finish).length) finish ends

/-- The ends of the zones past `prev`: all the sizes past it, in order. -/
structure Ladder (sizes : List Nat) (prev : Nat) (ends : List Nat) : Prop where
  ordered : (prev :: ends).Pairwise (· < ·)
  listed : ∀ size ∈ sizes, prev < size → size ∈ ends
  real : ∀ finish ∈ ends, finish ∈ sizes

namespace Ladder

variable {sizes ends : List Nat} {prev finish : Nat}

theorem prev_lt (ladder : Ladder sizes prev (finish :: ends)) : prev < finish :=
  (List.pairwise_cons.mp ladder.ordered).1 finish (by simp)

theorem next (ladder : Ladder sizes prev (finish :: ends)) : Ladder sizes finish ends where
  ordered := (List.pairwise_cons.mp ladder.ordered).2
  listed := by
    intro size member past
    have above := ladder.prev_lt
    rcases List.mem_cons.mp (ladder.listed size member (by omega)) with rfl | later
    · exact absurd past (Nat.lt_irrefl size)
    · exact later
  real := fun other member => ladder.real other (List.mem_cons_of_mem finish member)

/-- No size lies between two ends. -/
theorem none_between (ladder : Ladder sizes prev (finish :: ends)) {size : Nat}
    (member : size ∈ sizes) (past : prev < size) : finish ≤ size := by
  rcases List.mem_cons.mp (ladder.listed size member past) with rfl | later
  · exact Nat.le_refl size
  · have ordered := (List.pairwise_cons.mp ladder.ordered).2
    exact Nat.le_of_lt ((List.pairwise_cons.mp ordered).1 size later)

theorem reach_pos (ladder : Ladder sizes prev (finish :: ends)) :
    0 < (reach sizes finish).length := by
  rw [length_reach, List.countP_pos_iff]
  exact ⟨finish, ladder.real finish (by simp), by simp⟩

/-- Nothing is past the last end. -/
theorem sum_past_last (ladder : Ladder sizes prev []) : (sizes.map (· - prev)).sum = 0 := by
  apply List.sum_eq_zero
  intro past member
  obtain ⟨size, listed, rfl⟩ := List.mem_map.mp member
  by_contra positive
  exact List.not_mem_nil (ladder.listed size listed (by omega))

end Ladder

/-- The sizes past `prev` are one step of the members that reach `finish` and the sizes
past `finish`. -/
theorem sum_past {sizes : List Nat} {prev finish : Nat} (less : prev < finish)
    (none : ∀ size ∈ sizes, prev < size → finish ≤ size) :
    (sizes.map (· - prev)).sum =
      (finish - prev) * sizes.countP (finish ≤ ·) + (sizes.map (· - finish)).sum := by
  induction sizes with
  | nil => simp
  | cons size sizes ih =>
      have rest := ih fun other member => none other (List.mem_cons_of_mem size member)
      have own := none size (by simp)
      rw [List.map_cons, List.sum_cons, List.map_cons, List.sum_cons, rest]
      by_cases reaches : finish ≤ size
      · rw [List.countP_cons_of_pos (by simpa using reaches), Nat.mul_add]
        omega
      · rw [List.countP_cons_of_neg (by simpa using reaches)]
        omega

section Zones

variable {sizes ends : List Nat} {start prev : Nat}

theorem sum_len_zonesFrom (ladder : Ladder sizes prev ends) :
    ((zonesFrom sizes start prev ends).map Zone.len).sum = (sizes.map (· - prev)).sum := by
  induction ends generalizing start prev with
  | nil =>
      rw [ladder.sum_past_last]
      rfl
  | cons finish ends ih =>
      have above := sum_past ladder.prev_lt fun size member => ladder.none_between member
      rw [above, zonesFrom, List.map_cons, List.sum_cons, ih ladder.next, length_reach]

/-- A zone that stays in a word. -/
theorem nextZone_of_lt (built : List Zone) {finish : Nat}
    (fits : start + (finish - prev) * (reach sizes finish).length < 2 ^ 64) :
    nextZone sizes (built, start, prev) finish =
      (built ++ [⟨start, (finish - prev) * (reach sizes finish).length, prev,
        reach sizes finish⟩], start + (finish - prev) * (reach sizes finish).length, finish) := by
  change (built ++ [Zone.mk start ((finish - prev) * (reach sizes finish).length % 2 ^ 64)
    prev (reach sizes finish)],
    (start + (finish - prev) * (reach sizes finish).length % 2 ^ 64) % 2 ^ 64, finish) = _
  rw [Nat.mod_eq_of_lt (by omega), Nat.mod_eq_of_lt fits]

/-- The source's loop builds these zones as long as its sums stay exact. -/
theorem foldl_nextZone (ladder : Ladder sizes prev ends) (built : List Zone)
    (exact : start + (sizes.map (· - prev)).sum < 2 ^ 64) :
    (ends.foldl (nextZone sizes) (built, start, prev)).1 =
      built ++ zonesFrom sizes start prev ends := by
  induction ends generalizing start prev built with
  | nil => simp [zonesFrom]
  | cons finish ends ih =>
      have above := sum_past ladder.prev_lt fun size member => ladder.none_between member
      rw [← length_reach] at above
      rw [List.foldl_cons, nextZone_of_lt built (by omega), ih ladder.next _ (by omega), zonesFrom,
        List.append_assoc]
      rfl

theorem tiles_zonesFrom (array : MdArray) :
    Tiles ((zonesFrom sizes start prev ends).map array.zoneTile) start
      (start + ((zonesFrom sizes start prev ends).map Zone.len).sum) := by
  induction ends generalizing start prev with
  | nil => rfl
  | cons finish ends ih =>
      rw [zonesFrom, List.map_cons, List.map_cons, List.sum_cons, ← Nat.add_assoc]
      exact ⟨rfl, ih⟩

end Zones

/-! ## Striping over a zone -/

/-- A zone of `rows` rows of chunks over its slots. -/
structure Zone.Stripes (z : Zone) (chunk rows : Nat) : Prop where
  some_slot : 0 < z.slots.length
  distinct : z.slots.Nodup
  len : z.len = rows * z.slots.length * chunk
  aligned : chunk ∣ z.start

section Striping

variable {array : MdArray} {z : Zone} {rows : Nat} (striped : array.level ≠ levelLinear)
  (chunk_pos : 0 < array.chunk) (stripes : z.Stripes array.chunk rows)

include striped chunk_pos stripes

/-- The member is picked by the chunk's number in the zone, from a first member that the
original layout takes from the zone's start. -/
theorem zonePlace_striped : ∃ shift, ∀ within, array.zonePlace z within =
    (z.slots.getD ((shift + within / array.chunk) % z.slots.length) 0,
      z.devStart + (within / array.chunk / z.slots.length * array.chunk +
        within % array.chunk)) := by
  obtain ⟨first, starts⟩ := stripes.aligned
  refine ⟨if array.layout = raid0LayoutOriginal then first else 0, fun within => ?_⟩
  unfold MdArray.zonePlace
  rw [if_neg striped]
  simp only
  split
  · rw [starts, Nat.mul_add_div chunk_pos, Nat.add_assoc]
  · rw [Nat.zero_add, Nat.add_assoc]

omit striped in
theorem chunk_lt {within : Nat} (inside : within < z.len) :
    within / array.chunk < rows * z.slots.length := by
  rw [Nat.div_lt_iff_lt_mul chunk_pos, ← stripes.len]
  exact inside

omit striped in
theorem zoneRow_lt {within : Nat} (inside : within < z.len) :
    within / array.chunk / z.slots.length < rows := by
  rw [Nat.div_lt_iff_lt_mul stripes.some_slot]
  exact chunk_lt chunk_pos stripes inside

/-- A place of the zone is a byte of its rows on one of its slots. -/
theorem place_inside {within : Nat} (inside : within < z.len) :
    (array.zonePlace z within).1 ∈ z.slots ∧
      z.devStart ≤ (array.zonePlace z within).2 ∧
      (array.zonePlace z within).2 < z.devStart + rows * array.chunk := by
  obtain ⟨shift, places⟩ := zonePlace_striped striped chunk_pos stripes
  have row := zoneRow_lt chunk_pos stripes inside
  have inner := Nat.mod_lt within chunk_pos
  have next : (within / array.chunk / z.slots.length + 1) * array.chunk ≤ rows * array.chunk :=
    Nat.mul_le_mul_right _ row
  rw [Nat.succ_mul] at next
  rw [places]
  simp only
  have index := Nat.mod_lt (shift + within / array.chunk) stripes.some_slot
  refine ⟨?_, by omega, by omega⟩
  rw [List.getD_eq_getElem?_getD, List.getElem?_eq_getElem index, Option.getD_some]
  exact List.getElem_mem index

theorem injective_striped : (array.zoneTile z).Injective := by
  obtain ⟨shift, places⟩ := zonePlace_striped striped chunk_pos stripes
  intro first _ second _ same
  change array.zonePlace z first = array.zonePlace z second at same
  rw [places, places, Prod.mk.injEq] at same
  obtain ⟨slot, off⟩ := same
  -- The byte gives the row and the place in the chunk, and the slot the rest of the number.
  obtain ⟨inner, row⟩ := Raid10.digits_unique (Nat.mod_lt first chunk_pos)
    (Nat.mod_lt second chunk_pos) (by omega :
      first % array.chunk + first / array.chunk / z.slots.length * array.chunk =
        second % array.chunk + second / array.chunk / z.slots.length * array.chunk)
  have firstIndex := Nat.mod_lt (shift + first / array.chunk) stripes.some_slot
  have secondIndex := Nat.mod_lt (shift + second / array.chunk) stripes.some_slot
  rw [List.getD_eq_getElem?_getD, List.getD_eq_getElem?_getD, List.getElem?_eq_getElem firstIndex,
    List.getElem?_eq_getElem secondIndex, Option.getD_some, Option.getD_some,
    stripes.distinct.getElem_inj_iff] at slot
  have split : ∀ c, shift + c = shift + c / z.slots.length * z.slots.length +
      c % z.slots.length := by
    intro c
    have := Nat.div_add_mod' c z.slots.length
    omega
  rw [split (first / array.chunk), split (second / array.chunk), row] at slot
  have column := Raid10.eq_of_add_mod_eq (Nat.mod_lt _ stripes.some_slot)
    (Nat.mod_lt _ stripes.some_slot) slot
  have chunks : first / array.chunk = second / array.chunk := by
    rw [← Nat.div_add_mod' (first / array.chunk) z.slots.length, row, column,
      Nat.div_add_mod']
  rw [← Nat.div_add_mod' first array.chunk, chunks, inner, Nat.div_add_mod']

omit striped chunk_pos stripes in
/-- Going around `size` members, every member is met. -/
theorem exists_column {size index : Nat} (bound : index < size) (shift : Nat) :
    ∃ column < size, (shift + column) % size = index := by
  have low := Nat.mod_lt shift (Nat.zero_lt_of_lt bound)
  refine ⟨(index + (size - shift % size)) % size, Nat.mod_lt _ (by omega), ?_⟩
  have around : shift + (index + (size - shift % size)) = index + size * (shift / size + 1) := by
    have split := Nat.div_add_mod shift size
    rw [Nat.mul_succ]
    omega
  rw [Nat.add_mod_mod, around, Nat.add_mul_mod_self_left, Nat.mod_eq_of_lt bound]

/-- Every byte of the zone's rows on every slot of it is a place of the zone. -/
theorem exists_place {slot off : Nat} (member : slot ∈ z.slots)
    (inside : off < rows * array.chunk) :
    ∃ within < z.len, array.zonePlace z within = (slot, z.devStart + off) := by
  obtain ⟨shift, places⟩ := zonePlace_striped striped chunk_pos stripes
  obtain ⟨index, bound, rfl⟩ := List.getElem_of_mem member
  obtain ⟨column, columnBound, picked⟩ := exists_column bound shift
  have some_slot := stripes.some_slot
  have inner := Nat.mod_lt off chunk_pos
  have row : off / array.chunk < rows := by
    rw [Nat.div_lt_iff_lt_mul chunk_pos]
    exact inside
  have chunks : column + off / array.chunk * z.slots.length < rows * z.slots.length := by
    have next : (off / array.chunk + 1) * z.slots.length ≤ rows * z.slots.length :=
      Nat.mul_le_mul_right _ row
    rw [Nat.succ_mul] at next
    omega
  have number : (off % array.chunk + (column + off / array.chunk * z.slots.length) *
      array.chunk) / array.chunk = column + off / array.chunk * z.slots.length := by
    rw [Nat.add_mul_div_right _ _ chunk_pos, Nat.div_eq_of_lt inner, Nat.zero_add]
  refine ⟨off % array.chunk + (column + off / array.chunk * z.slots.length) * array.chunk, ?_, ?_⟩
  · have next : (column + off / array.chunk * z.slots.length + 1) * array.chunk ≤
        rows * z.slots.length * array.chunk := Nat.mul_le_mul_right _ chunks
    rw [stripes.len]
    rw [Nat.succ_mul] at next
    omega
  · rw [places, number, Nat.add_mul_mod_self_right, Nat.mod_mod, Nat.add_mul_div_right _ _ some_slot,
      Nat.div_eq_of_lt columnBound, Nat.zero_add, Nat.div_add_mod', ← Nat.add_assoc,
      Nat.add_mul_mod_self_right, picked, List.getD_eq_getElem?_getD,
      List.getElem?_eq_getElem bound, Option.getD_some]

/-- A read goes on to the end of its chunk, byte by byte. -/
theorem runs_striped {within : Nat} (inside : within < z.len) :
    0 < array.zoneRoom z within ∧ ∀ j < array.zoneRoom z within, within + j < z.len ∧
      array.zonePlace z (within + j) =
        ((array.zonePlace z within).1, (array.zonePlace z within).2 + j) := by
  obtain ⟨shift, places⟩ := zonePlace_striped striped chunk_pos stripes
  have inner := Nat.mod_lt within chunk_pos
  have room : array.zoneRoom z within = array.chunk - within % array.chunk := if_neg striped
  rw [room]
  refine ⟨by omega, fun j short => ?_⟩
  have split := Nat.div_add_mod' within array.chunk
  have joined : within + j = within % array.chunk + j + within / array.chunk * array.chunk := by
    omega
  have number : (within + j) / array.chunk = within / array.chunk := by
    rw [joined, Nat.add_mul_div_right _ _ chunk_pos, Nat.div_eq_of_lt (by omega), Nat.zero_add]
  have place : (within + j) % array.chunk = within % array.chunk + j := by
    rw [joined, Nat.add_mul_mod_self_right, Nat.mod_eq_of_lt (by omega)]
  refine ⟨?_, ?_⟩
  · have chunks := chunk_lt chunk_pos stripes inside
    rw [stripes.len, ← Nat.div_lt_iff_lt_mul chunk_pos, number]
    exact chunks
  · rw [places, places, number, place]
    simp only [Prod.mk.injEq, true_and]
    omega

end Striping

/-! ## The zones a RAID0 is built of -/

/-- A zone striped over the members that reach `finish`, up to there. -/
structure Zone.Reaches (z : Zone) (sizes : List Nat) (chunk finish : Nat) : Prop where
  slots : z.slots = reach sizes finish
  above : z.devStart < finish
  rows : (finish - z.devStart) / chunk * chunk = finish - z.devStart
  stripes : z.Stripes chunk ((finish - z.devStart) / chunk)

section Reaching

variable {sizes ends : List Nat} {chunk start prev : Nat}
  (whole : ∀ size ∈ sizes, chunk ∣ size)

include whole

/-- A zone ends at a whole number of chunks, on its members and on the array. -/
theorem whole_next {finish : Nat} (ladder : Ladder sizes prev (finish :: ends))
    (prevWhole : chunk ∣ prev) (startWhole : chunk ∣ start) :
    chunk ∣ finish ∧ chunk ∣ start + (finish - prev) * (reach sizes finish).length := by
  have finishWhole := whole finish (ladder.real finish (by simp))
  exact ⟨finishWhole,
    Nat.dvd_add startWhole (Dvd.dvd.mul_right (Nat.dvd_sub finishWhole prevWhole) _)⟩

/-- The first zone past `prev`. -/
theorem reaches_first {finish : Nat} (ladder : Ladder sizes prev (finish :: ends))
    (prevWhole : chunk ∣ prev) (startWhole : chunk ∣ start) :
    (Zone.mk start ((finish - prev) * (reach sizes finish).length) prev
      (reach sizes finish)).Reaches sizes chunk finish := by
  have rows : (finish - prev) / chunk * chunk = finish - prev :=
    Nat.div_mul_cancel (Nat.dvd_sub (whole finish (ladder.real finish (by simp))) prevWhole)
  refine ⟨rfl, ladder.prev_lt, rows, ladder.reach_pos, nodup_reach sizes finish, ?_, startWhole⟩
  change (finish - prev) * (reach sizes finish).length = _
  rw [Nat.mul_right_comm, rows]

theorem reaches_zonesFrom (ladder : Ladder sizes prev ends) (prevWhole : chunk ∣ prev)
    (startWhole : chunk ∣ start) {z : Zone} (member : z ∈ zonesFrom sizes start prev ends) :
    prev ≤ z.devStart ∧ ∃ finish, z.Reaches sizes chunk finish := by
  induction ends generalizing start prev with
  | nil => cases member
  | cons finish ends ih =>
      have first := reaches_first whole ladder prevWhole startWhole
      rcases List.mem_cons.mp member with rfl | later
      · exact ⟨Nat.le_refl prev, finish, first⟩
      · obtain ⟨finishWhole, next⟩ := whole_next whole ladder prevWhole startWhole
        have above := ladder.prev_lt
        obtain ⟨devStart, reaches⟩ := ih ladder.next finishWhole next later
        exact ⟨by omega, reaches⟩

/-- Every byte of a member past `prev` is in the rows of a zone that has the member. -/
theorem exists_zone (ladder : Ladder sizes prev ends) (prevWhole : chunk ∣ prev)
    (startWhole : chunk ∣ start) {slot off : Nat} (present : slot < sizes.length)
    (after : prev ≤ off) (before : off < sizes.getD slot 0) :
    ∃ z ∈ zonesFrom sizes start prev ends, ∃ finish, z.Reaches sizes chunk finish ∧
      slot ∈ z.slots ∧ z.devStart ≤ off ∧ off < finish := by
  have listed : sizes.getD slot 0 ∈ sizes := by
    rw [List.getD_eq_getElem?_getD, List.getElem?_eq_getElem present, Option.getD_some]
    exact List.getElem_mem present
  induction ends generalizing start prev with
  | nil => exact absurd (ladder.listed _ listed (by omega)) List.not_mem_nil
  | cons finish ends ih =>
      have first := reaches_first whole ladder prevWhole startWhole
      by_cases own : off < finish
      · have far := ladder.none_between listed (by omega)
        exact ⟨_, List.mem_cons_self, finish, first, mem_reach.mpr ⟨present, far⟩, after, own⟩
      · obtain ⟨finishWhole, next⟩ := whole_next whole ladder prevWhole startWhole
        obtain ⟨z, member, found⟩ := ih ladder.next finishWhole next (by omega)
        exact ⟨z, List.mem_cons_of_mem _ member, found⟩

/-- Zones use different rows of their members. -/
theorem apart_zonesFrom {array : MdArray} (striped : array.level ≠ levelLinear)
    (chunk_pos : 0 < array.chunk) (same : array.chunk = chunk) (ladder : Ladder sizes prev ends)
    (prevWhole : chunk ∣ prev) (startWhole : chunk ∣ start) :
    ((zonesFrom sizes start prev ends).map array.zoneTile).Pairwise Tile.Apart := by
  subst same
  induction ends generalizing start prev with
  | nil => exact .nil
  | cons finish ends ih =>
      have first := reaches_first whole ladder prevWhole startWhole
      obtain ⟨finishWhole, next⟩ := whole_next whole ladder prevWhole startWhole
      rw [zonesFrom, List.map_cons, List.pairwise_cons]
      refine ⟨?_, ih ladder.next finishWhole next⟩
      intro tile member i iInside j jInside shared
      obtain ⟨z, listed, rfl⟩ := List.mem_map.mp member
      obtain ⟨later, other, reaches⟩ := reaches_zonesFrom whole ladder.next finishWhole next listed
      -- The earlier zone ends where the later one starts at the latest.
      have early := (place_inside striped chunk_pos first.stripes iInside).2.2
      have late := (place_inside striped chunk_pos reaches.stripes jInside).2.1
      have above := first.above
      have rows := first.rows
      have equal : (array.zonePlace _ i).2 = (array.zonePlace z j).2 := congrArg Prod.snd shared
      simp only at early above rows
      omega

end Reaching

/-! ## Assembled RAID0 and linear arrays -/

/-- Slots that are all taken are a list of members. -/
theorem eq_map_some {slots : List (Option Member)} (all : slots.length ≤ presentCount slots) :
    slots = (slots.filterMap id).map some := by
  unfold presentCount at all
  induction slots with
  | nil => rfl
  | cons slot slots ih =>
      have most := @List.countP_le_length _ Option.isSome slots
      cases slot with
      | none =>
          rw [List.countP_cons_of_neg (by simp), List.length_cons] at all
          omega
      | some m =>
          rw [List.countP_cons_of_pos (by simp), List.length_cons] at all
          exact congrArg (List.cons (some m)) (ih (by omega))

section Shapes

variable {array : MdArray} (assembled : Assembled array)

include assembled

/-- The array's members, in slot order. -/
theorem members_of_need (enough : ¬ presentCount array.slots < array.superblock.raidDisks) :
    array.slots = (array.slots.filterMap id).map some :=
  eq_map_some (by rw [assembled.members]; omega)

omit assembled in
theorem getElem?_slots (members : array.slots = (array.slots.filterMap id).map some) {slot : Nat}
    {m : Member} :
    array.slots[slot]? = some (some m) ↔ (array.slots.filterMap id)[slot]? = some m := by
  conv_lhs => rw [members]
  rw [List.getElem?_map, Option.map_eq_some_iff]
  simp

omit assembled in
/-- The ends of all the zones. -/
theorem ladder_ends (sizes : List Nat) :
    Ladder sizes 0 (((sizes.filter fun size => 0 < size).mergeSort).destutter (· ≠ ·)) := by
  have sorted : ((sizes.filter fun size => 0 < size).mergeSort).Pairwise (· ≤ ·) :=
    List.pairwise_mergeSort' (· ≤ ·) _
  have once : ((sizes.filter fun size => 0 < size).mergeSort).destutter (· ≠ ·) =
      ((sizes.filter fun size => 0 < size).mergeSort).dedup := sorted.destutter_eq_dedup
  have listed : ∀ size, size ∈ ((sizes.filter fun size => 0 < size).mergeSort).dedup ↔
      size ∈ sizes ∧ 0 < size := by
    intro size
    rw [List.mem_dedup, List.mem_mergeSort, List.mem_filter, decide_eq_true_iff]
  rw [once]
  refine ⟨List.pairwise_cons.mpr ⟨fun size member => ((listed size).mp member).2, ?_⟩,
    fun size member positive => (listed size).mpr ⟨member, positive⟩,
    fun size member => ((listed size).mp member).1⟩
  exact ((sorted.sublist (List.dedup_sublist _)).and (List.nodup_dedup _)).imp
    fun both => Nat.lt_of_le_of_ne both.1 both.2

/-- What the members of a RAID0 are, and what its zones are made of. -/
theorem raid0_of_assembled (level : array.level = levelRaid0) :
    array.slots = (array.slots.filterMap id).map some ∧ 0 < array.chunk ∧
      array.zones = raid0Zones ((array.slots.filterMap id).map array.usable) ∧
      array.size = (array.zones.map Zone.len).sum % 2 ^ 64 := by
  have shaped := assembled.geometry
  have chosen : levelGeometry array.superblock array.slots =
      raid0Geometry array.superblock array.slots := by
    have own := assembled.level.symm.trans level
    unfold levelGeometry
    rw [own]
    rfl
  rw [chosen] at shaped
  unfold raid0Geometry needsChunk needMembers at shaped
  obtain ⟨enough, shaped⟩ := refuseIf_bind_eq_ok.mp shaped
  obtain ⟨chunked, shaped⟩ := refuseIf_bind_eq_ok.mp shaped
  obtain ⟨-, shaped⟩ := refuseIf_bind_eq_ok.mp shaped
  simp only [Except.ok.injEq, Geometry.mk.injEq] at shaped
  obtain ⟨size, zones, -⟩ := shaped
  rw [← assembled.chunk] at chunked zones
  have usable : array.usable = fun m => m.dataSize / array.chunk * array.chunk := by
    funext m
    exact if_neg (by omega)
  rw [← usable] at zones
  rw [← assembled.chunk, ← usable, zones] at size
  exact ⟨members_of_need assembled enough, by omega, zones.symm, size.symm⟩

/-- The zones of a RAID0 whose size is exact. -/
theorem zonedShape_raid0 (level : array.level = levelRaid0)
    (exact : ((array.slots.filterMap id).map array.usable).sum < 2 ^ 64) : ZonedShape array := by
  obtain ⟨members, chunk_pos, zones, size⟩ := raid0_of_assembled assembled level
  have striped : array.level ≠ levelLinear := by
    rw [level]
    decide
  generalize sizesEq : (array.slots.filterMap id).map array.usable = sizes at exact zones
  have whole : ∀ size ∈ sizes, array.chunk ∣ size := by
    intro size member
    rw [← sizesEq] at member
    obtain ⟨m, _, rfl⟩ := List.mem_map.mp member
    unfold MdArray.usable
    rw [if_neg (by omega)]
    exact Nat.dvd_mul_left _ _
  have sizeOf : ∀ {slot m}, array.slots[slot]? = some (some m) →
      slot < sizes.length ∧ sizes.getD slot 0 = array.usable m := by
    intro slot m present
    have found := (getElem?_slots members).mp present
    have here : sizes[slot]? = some (array.usable m) := by
      rw [← sizesEq, List.getElem?_map, found, Option.map_some]
    exact ⟨(List.getElem?_eq_some_iff.mp here).1, by
      rw [List.getD_eq_getElem?_getD, here, Option.getD_some]⟩
  have memberOf : ∀ {slot}, slot < sizes.length → ∃ m, array.slots[slot]? = some (some m) := by
    intro slot bound
    rw [← sizesEq, List.length_map] at bound
    exact ⟨_, (getElem?_slots members).mpr (List.getElem?_eq_getElem bound)⟩
  have ladder := ladder_ends sizes
  have plain : sizes.map (· - 0) = sizes := by simp
  have built : array.zones = zonesFrom sizes 0 0
      (((sizes.filter fun size => 0 < size).mergeSort).destutter (· ≠ ·)) := by
    rw [zones]
    exact (foldl_nextZone ladder [] (by rw [plain]; omega)).trans (List.nil_append _)
  have total : array.size = ((zonesFrom sizes 0 0
      (((sizes.filter fun size => 0 < size).mergeSort).destutter (· ≠ ·))).map Zone.len).sum := by
    rw [size, built, sum_len_zonesFrom ladder, plain, Nat.mod_eq_of_lt exact]
  generalize ((sizes.filter fun size => 0 < size).mergeSort).destutter (· ≠ ·) = ends
    at ladder built total
  have reaches : ∀ z ∈ array.zones, ∃ finish, z.Reaches sizes array.chunk finish := by
    intro z member
    rw [built] at member
    exact (reaches_zonesFrom whole ladder (Nat.dvd_zero _) (Nat.dvd_zero _) member).2
  refine ⟨?_, ?_, ?_, ?_, ?_, ?_⟩
  · rw [built, total]
    simpa using @tiles_zonesFrom sizes ends 0 0 array
  · intro z member within short
    obtain ⟨finish, reach⟩ := reaches z member
    obtain ⟨slot, _, low⟩ := place_inside striped chunk_pos reach.stripes short
    rw [reach.slots] at slot
    obtain ⟨bound, far⟩ := mem_reach.mp slot
    obtain ⟨m, present⟩ := memberOf bound
    have above := reach.above
    rw [reach.rows] at low
    rw [(sizeOf present).2] at far
    exact ⟨m, present, by omega⟩
  · intro z member
    obtain ⟨finish, reach⟩ := reaches z member
    exact injective_striped striped chunk_pos reach.stripes
  · rw [built]
    exact apart_zonesFrom whole striped chunk_pos rfl ladder (Nat.dvd_zero _) (Nat.dvd_zero _)
  · intro slot m present off short
    obtain ⟨bound, own⟩ := sizeOf present
    obtain ⟨z, member, finish, reach, held, after, before⟩ := exists_zone whole ladder
      (Nat.dvd_zero _) (Nat.dvd_zero _) bound (Nat.zero_le off) (by rw [own]; exact short)
    have row : off - z.devStart < (finish - z.devStart) / array.chunk * array.chunk := by
      rw [reach.rows]
      omega
    obtain ⟨within, inside, place⟩ := exists_place striped chunk_pos reach.stripes held row
    rw [← built] at member
    rw [Nat.add_sub_cancel' after] at place
    exact ⟨z, member, within, inside, place⟩
  · intro z member within short
    obtain ⟨finish, reach⟩ := reaches z member
    exact runs_striped striped chunk_pos reach.stripes short

omit assembled in
/-- The zones of a linear array over the members from `start` on. -/
theorem foldlM_appendLinear {chunk size : Nat} {members : List (Nat × Member)}
    {built zones : List Zone} {start : Nat}
    (done : members.foldlM (appendLinear chunk) (built, start) = .ok (zones, size)) :
    ∃ added, zones = built ++ added ∧
      Tiles (added.map array.zoneTile) start size ∧
      List.Forall₂ (fun z member => z.devStart = 0 ∧ z.slots = [member.1] ∧
        z.len = if chunk = 0 then member.2.dataSize else member.2.dataSize / chunk * chunk)
        added members := by
  induction members generalizing built start with
  | nil =>
      cases done
      exact ⟨[], (List.append_nil _).symm, rfl, .nil⟩
  | cons member members ih =>
      rw [List.foldlM_cons] at done
      obtain ⟨⟨next, after⟩, step, done⟩ := bind_eq_ok.mp done
      unfold appendLinear at step
      obtain ⟨_, step⟩ := refuseIf_bind_eq_ok.mp step
      cases step
      obtain ⟨added, joined, tiles, each⟩ := ih done
      rw [List.append_assoc] at joined
      exact ⟨_ :: added, joined, ⟨rfl, tiles⟩, .cons ⟨rfl, rfl, rfl⟩ each⟩

/-- What the zones of a linear array are: one for each member, in slot order. -/
theorem linear_of_assembled (level : array.level = levelLinear) :
    array.slots = (array.slots.filterMap id).map some ∧
      Tiles (array.zones.map array.zoneTile) 0 array.size ∧
      array.zones.length = (array.slots.filterMap id).length ∧
      ∀ (slot : Nat) (z : Zone) (m : Member), array.zones[slot]? = some z →
        (array.slots.filterMap id)[slot]? = some m →
        z.devStart = 0 ∧ z.slots = [slot] ∧ z.len = array.usable m := by
  have shaped := assembled.geometry
  have chosen : levelGeometry array.superblock array.slots =
      linearGeometry array.superblock array.slots := by
    have own := assembled.level.symm.trans level
    unfold levelGeometry
    rw [own]
    rfl
  rw [chosen] at shaped
  unfold linearGeometry needMembers at shaped
  obtain ⟨enough, shaped⟩ := refuseIf_bind_eq_ok.mp shaped
  have members := members_of_need assembled enough
  have listed : ∀ numbered : Option Member × Nat → Option (Nat × Member),
      (∀ entry, numbered entry = entry.1.map fun m => (entry.2, m)) →
      array.slots.zipIdx.filterMap numbered =
        (array.slots.filterMap id).zipIdx.map fun entry => (entry.2, entry.1) := by
    intro numbered numbers
    conv_lhs => rw [members]
    rw [List.zipIdx_map, List.filterMap_map, funext numbers]
    exact congrFun List.filterMap_eq_map _
  rw [listed _ fun _ => rfl, ← assembled.chunk] at shaped
  obtain ⟨⟨zones, size⟩, done, shaped⟩ := bind_eq_ok.mp shaped
  simp only [Except.ok.injEq, Geometry.mk.injEq] at shaped
  obtain ⟨sizeEq, zonesEq, -⟩ := shaped
  obtain ⟨added, joined, tiles, each⟩ := @foldlM_appendLinear array _ _ _ _ _ _ done
  rw [List.nil_append, zonesEq] at joined
  rw [← joined, sizeEq] at tiles
  rw [← joined] at each
  refine ⟨members, tiles, ?_, fun slot z m atZone atMember => ?_⟩
  · rw [each.length_eq, List.length_map, List.length_zipIdx]
  · obtain ⟨zoneBound, rfl⟩ := List.getElem?_eq_some_iff.mp atZone
    obtain ⟨memberBound, rfl⟩ := List.getElem?_eq_some_iff.mp atMember
    have here := each.get zoneBound (by simpa using memberBound)
    simp only [List.get_eq_getElem, List.getElem_map, List.getElem_zipIdx, Nat.zero_add] at here
    exact here

/-- The zones of a linear array. -/
theorem zonedShape_linear (level : array.level = levelLinear) : ZonedShape array := by
  obtain ⟨members, tiles, lengths, each⟩ := linear_of_assembled assembled level
  have places : ∀ z within, array.zonePlace z within = (z.slots.getD 0 0, z.devStart + within) :=
    fun _ _ => if_pos level
  have memberOf : ∀ z ∈ array.zones, ∃ slot m, array.slots[slot]? = some (some m) ∧
      z.devStart = 0 ∧ z.slots = [slot] ∧ z.len = array.usable m := by
    intro z member
    obtain ⟨slot, atZone⟩ := List.getElem?_of_mem member
    have bound := (List.getElem?_eq_some_iff.mp atZone).1
    rw [lengths] at bound
    have atMember := List.getElem?_eq_getElem bound
    exact ⟨slot, _, (getElem?_slots members).mpr atMember, each slot z _ atZone atMember⟩
  refine ⟨tiles, ?_, ?_, ?_, ?_, ?_⟩
  · intro z member within short
    obtain ⟨slot, m, present, devStart, slots, len⟩ := memberOf z member
    rw [places, slots, devStart, Nat.zero_add]
    exact ⟨m, present, by omega⟩
  · intro z _ first _ second _ same
    change array.zonePlace z first = array.zonePlace z second at same
    rw [places, places, Prod.mk.injEq] at same
    omega
  · rw [List.pairwise_map, List.pairwise_iff_getElem]
    intro i j iBound jBound less a _ b _ shared
    have own : ∀ k (bound : k < array.zones.length), array.zones[k].slots = [k] := by
      intro k bound
      have inMembers : k < (array.slots.filterMap id).length := by omega
      exact (each k _ _ (List.getElem?_eq_getElem bound)
        (List.getElem?_eq_getElem inMembers)).2.1
    change array.zonePlace _ a = array.zonePlace _ b at shared
    rw [places, places, own i iBound, own j jBound, Prod.mk.injEq] at shared
    have same : i = j := shared.1
    omega
  · intro slot m present off short
    have atMember := (getElem?_slots members).mp present
    have bound := (List.getElem?_eq_some_iff.mp atMember).1
    rw [← lengths] at bound
    obtain ⟨devStart, slots, len⟩ := each slot _ m (List.getElem?_eq_getElem bound) atMember
    refine ⟨array.zones[slot], List.getElem_mem bound, off, by omega, ?_⟩
    rw [places, slots, devStart, Nat.zero_add]
    rfl
  · intro z _ within short
    have room : array.zoneRoom z within = z.len - within := if_pos level
    rw [room]
    refine ⟨by omega, fun j further => ⟨by omega, ?_⟩⟩
    rw [places, places, Nat.add_assoc]

end Shapes

/-! ## Reading what is mapped -/

namespace MdArray

/-- Each member's data area holds the given bytes, and reads inside it succeed. -/
def HoldsData (array : MdArray) (areas : Nat → List UInt8) : Prop :=
  ∀ slot (m : Member), array.slots[slot]? = some (some m) →
    (areas slot).length = m.dataSize ∧ ∀ off len, off + len ≤ m.dataSize →
      m.dev.readAt (m.dataOffset + off) len = .ok (slice (areas slot) off len)

/-- The byte of the members' data areas that a position is mapped to. -/
def mappedByte (array : MdArray) (areas : Nat → List UInt8) (pos : Nat) : UInt8 :=
  ((array.zonedPlace pos).map fun place => (areas place.1).getD place.2 default).getD default

section Reading

variable {array : MdArray} (shape : ZonedShape array)

include shape

theorem zonedPlace_of_mem {z : Zone} (member : z ∈ array.zones) {within : Nat}
    (inside : within < z.len) :
    array.zonedPlace (z.start + within) = some (array.zonePlace z within) :=
  shape.tiles.locate_of_mem (List.mem_map_of_mem member) inside

/-- The zone of a position of the array is found. -/
theorem find_zone {pos : Nat} (inside : pos < array.size) :
    ∃ z ∈ array.zones, ∃ within < z.len, pos = z.start + within ∧
      (array.zones.find? fun z => z.start ≤ pos ∧ pos < z.start + z.len) = some z := by
  cases found : array.zones.find? fun z => z.start ≤ pos ∧ pos < z.start + z.len with
  | none =>
      obtain ⟨tile, member, covers⟩ := shape.tiles.exists_covers (Nat.zero_le pos) inside
      obtain ⟨z, listed, rfl⟩ := List.mem_map.mp member
      have missed := List.find?_eq_none.mp found z listed
      exact absurd (decide_eq_true covers) missed
  | some z =>
      have covers : z.start ≤ pos ∧ pos < z.start + z.len := by simpa using List.find?_some found
      exact ⟨z, List.mem_of_find?_eq_some found, pos - z.start, by omega, by omega, rfl⟩

/-- A byte of the array is the byte of the member that the zone places it on. -/
theorem readZoned_content {areas : Nat → List UInt8} (holds : array.HoldsData areas)
    {pos left : Nat} (some_left : 0 < left) (inside : pos + left ≤ array.size) :
    ∃ taken, 0 < taken ∧ taken ≤ left ∧ array.readZoned pos left =
      .ok (buffer taken fun j => array.mappedByte areas (pos + j)) := by
  obtain ⟨z, member, within, short, rfl, found⟩ := find_zone shape (by omega : pos < array.size)
  obtain ⟨room, run⟩ := shape.runs z member within short
  have taken_pos : 0 < min (array.zoneRoom z within) left := by omega
  refine ⟨min (array.zoneRoom z within) left, taken_pos, Nat.min_le_right _ _, ?_⟩
  obtain ⟨m, present, _⟩ := shape.inside z member within short
  obtain ⟨length, reads⟩ := holds _ m present
  -- The last byte that is read is still in the member's data area.
  have fits : (array.zonePlace z within).2 + min (array.zoneRoom z within) left ≤ m.dataSize := by
    obtain ⟨lastInside, last⟩ := run (min (array.zoneRoom z within) left - 1) (by omega)
    obtain ⟨other, there, low⟩ := shape.inside z member _ lastInside
    rw [last] at there low
    rw [present] at there
    cases there
    have some_usable : array.usable m ≤ m.dataSize := by
      unfold usable
      split
      · exact Nat.le_refl _
      · exact Nat.div_mul_le_self _ _
    simp only at low
    omega
  have slot : array.slots.getD (array.zonePlace z within).1 none = some m := by
    rw [List.getD_eq_getElem?_getD, present, Option.getD_some]
  rw [readZoned_eq, found]
  simp only [Nat.add_sub_cancel_left]
  unfold readPresent readMember
  rw [slot]
  simp only [reads _ _ fits, ok_bind]
  rw [slice_eq_buffer (by omega)]
  refine congrArg Except.ok (buffer_congr fun j jTaken => ?_)
  obtain ⟨jInside, place⟩ := run j (by omega)
  rw [mappedByte, Nat.add_assoc, zonedPlace_of_mem shape member jInside, place]
  rfl

end Reading

end MdArray

/-- RAID0 and linear placement: the zones tile the array, every position has a byte of
the used part of one member's data area and no two have the same one, every such byte
has a position, and a read returns the bytes so mapped. -/
theorem zoned_placement_bijective {devices : List BlockRead} {array : MdArray}
    (assembled : assemble devices = .ok array)
    (zoned : array.level = levelRaid0 ∨ array.level = levelLinear)
    (exact : ((array.slots.filterMap id).map array.usable).sum < 2 ^ 64) :
    Tiles (array.zones.map array.zoneTile) 0 array.size ∧
      (∀ pos < array.size, ∃ slot off m, array.zonedPlace pos = some (slot, off) ∧
        array.slots[slot]? = some (some m) ∧ off < array.usable m) ∧
      (∀ p < array.size, ∀ q < array.size, array.zonedPlace p = array.zonedPlace q → p = q) ∧
      (∀ slot m, array.slots[slot]? = some (some m) → ∀ off < array.usable m,
        ∃ pos < array.size, array.zonedPlace pos = some (slot, off)) ∧
      ∀ areas, array.HoldsData areas → ∀ offset len, offset + len ≤ array.size →
        array.readAt offset len = .ok (buffer len fun j => array.mappedByte areas (offset + j)) := by
  have shape : ZonedShape array := by
    rcases zoned with raid0 | linear
    · exact zonedShape_raid0 (assembled_of_assemble assembled) raid0 exact
    · exact zonedShape_linear (assembled_of_assemble assembled) linear
  refine ⟨shape.tiles, ?_, ?_, ?_, ?_⟩
  · intro pos inside
    obtain ⟨z, member, within, short, rfl, _⟩ := MdArray.find_zone shape inside
    obtain ⟨m, present, low⟩ := shape.inside z member within short
    exact ⟨_, _, m, MdArray.zonedPlace_of_mem shape member short, present, low⟩
  · intro p pInside q qInside same
    have each : ∀ tile ∈ array.zones.map array.zoneTile, tile.Injective := by
      intro tile member
      obtain ⟨z, listed, rfl⟩ := List.mem_map.mp member
      exact shape.each z listed
    exact shape.tiles.locate_injective each shape.apart (Nat.zero_le p) pInside (Nat.zero_le q)
      qInside same
  · intro slot m present off low
    obtain ⟨z, member, within, short, place⟩ := shape.onto slot m present off low
    have bounds := shape.tiles.inside (List.mem_map_of_mem member)
    refine ⟨z.start + within, ?_, ?_⟩
    · change _ ∧ z.start + z.len ≤ _ at bounds
      omega
    · rw [MdArray.zonedPlace_of_mem shape member short, place]
  · intro areas holds offset len inside
    have apart : array.level ≠ levelRaid1 := by
      rcases zoned with raid0 | linear
      · rw [raid0]
        decide
      · rw [linear]
        decide
    unfold MdArray.readAt
    rw [if_neg (by omega), if_neg apart, if_pos zoned]
    exact readPieces_content
      (fun position left some_left ends =>
        MdArray.readZoned_content shape holds some_left (by omega)) (Nat.le_refl len) rfl

/-! ## Two members striped -/

/-- The superblock of two members striped in chunks of 1 KiB. -/
def raid0Words (slot : Nat) : LegacyWords where
  level := 0
  sizeKib := 64
  raidDisks := 2
  events := 7
  layout := 0
  chunkBytes := 1024
  raidDisk := slot
  state := 6

def raid0Member (slot : Nat) (byte : UInt8) : BlockRead :=
  legacyMember (raid0Words slot) fun _ => byte

def stripedArray : MdArray where
  slots := [some { dev := raid0Member 0 5, dataOffset := 0, dataSize := 65536 },
    some { dev := raid0Member 1 6, dataOffset := 0, dataSize := 65536 }]
  level := 0
  layout := 0
  chunk := 1024
  size := 131072
  zones := [⟨0, 131072, 0, [0, 1]⟩]
  raid10 := none
  superblock := (raid0Words 0).superblock

theorem raid0Words_fits {slot : Nat} (small : slot < 2) : (raid0Words slot).Fits := by
  constructor <;> simp [raid0Words]
  omega

theorem raid0Zones_pair : raid0Zones [65536, 65536] = [⟨0, 131072, 0, [0, 1]⟩] := by
  have sorted : ([65536, 65536].filter fun size => 0 < size).mergeSort = [65536, 65536] :=
    List.mergeSort_of_pairwise (by decide)
  unfold raid0Zones
  simp only [sorted]
  decide

theorem geometry_stripedArray :
    levelGeometry (raid0Words 0).superblock stripedArray.slots =
      .ok ⟨131072, [⟨0, 131072, 0, [0, 1]⟩], none⟩ := by
  have sizes : ((stripedArray.slots.filterMap id).map fun m =>
      m.dataSize / (raid0Words 0).superblock.chunkBytes * (raid0Words 0).superblock.chunkBytes) =
      [65536, 65536] := by decide
  change raid0Geometry _ _ = _
  unfold raid0Geometry needMembers needsChunk
  rw [refuseIf_of_not (by decide), ok_bind, refuseIf_of_not (by decide), ok_bind]
  simp only [sizes, raid0Zones_pair]
  rfl

theorem assemble_stripedArray :
    assemble [raid0Member 0 5, raid0Member 1 6] = .ok stripedArray := by
  have reads : ∀ entry ∈ [(raid0Member 0 5, (raid0Words 0).superblock),
      (raid0Member 1 6, (raid0Words 1).superblock)], ∀ member,
      readSuperblockOf entry.1 member = .ok (some entry.2) := by
    intro entry inside member
    simp only [List.mem_cons, List.not_mem_nil, or_false] at inside
    obtain rfl | rfl := inside
    · exact readSuperblockOf_legacyMember (raid0Words_fits (by decide))
        (plainArea_const (by decide)) member
    · exact readSuperblockOf_legacyMember (raid0Words_fits (by decide))
        (plainArea_const (by decide)) member
  have found := readMembers_eq reads
  simp only [List.map_cons, List.map_nil] at found
  unfold assemble
  rw [refuseIf_of_not (by simp), ok_bind, found, ok_bind]
  change (do
    let geometry ← levelGeometry (raid0Words 0).superblock stripedArray.slots
    refuseIf (∃ m ∈ stripedArray.slots.filterMap id, m.dev.sizeBytes.toNat <
      m.dataOffset + memberSpan (raid0Words 0).superblock geometry.size) _
    Except.ok _) = _
  rw [geometry_stripedArray]
  rfl

/-- A read across the end of a chunk. -/
theorem readAt_stripedArray :
    assemble [raid0Member 0 5, raid0Member 1 6] = .ok stripedArray ∧
      stripedArray.readAt 1020 8 = .ok [5, 5, 5, 5, 6, 6, 6, 6] := by
  refine ⟨assemble_stripedArray, ?_⟩
  obtain ⟨-, -, -, -, reads⟩ := zoned_placement_bijective assemble_stripedArray (.inl rfl)
    (by decide)
  have read := reads (fun slot => List.replicate 65536 (if slot = 0 then 5 else 6)) ?_ 1020 8
    (by decide)
  · rw [read]
    have places : (List.range 8).map (fun j => stripedArray.zonedPlace (1020 + j)) =
        [some (0, 1020), some (0, 1021), some (0, 1022), some (0, 1023),
          some (1, 0), some (1, 1), some (1, 2), some (1, 3)] := by decide
    have constant : ∀ (byte : UInt8) off, off < 65536 →
        (List.replicate 65536 byte).getD off default = byte := by
      intro byte off small
      rw [List.getD_eq_getElem?_getD, List.getElem?_replicate, if_pos small, Option.getD_some]
    have asMap : buffer 8 (fun j => stripedArray.mappedByte
        (fun slot => List.replicate 65536 (if slot = 0 then 5 else 6)) (1020 + j)) =
        ((List.range 8).map fun j => stripedArray.zonedPlace (1020 + j)).map fun place =>
          (place.map fun p =>
            (List.replicate 65536 (if p.1 = 0 then 5 else 6)).getD p.2 default).getD default := by
      rw [List.map_map]
      rfl
    rw [asMap, places]
    simp only [List.map_cons, List.map_nil, Option.map_some, Option.getD_some]
    rw [constant _ 1020 (by decide), constant _ 1021 (by decide), constant _ 1022 (by decide),
      constant _ 1023 (by decide), constant _ 0 (by decide), constant _ 1 (by decide),
      constant _ 2 (by decide), constant _ 3 (by decide)]
    rfl
  · intro slot m found
    match slot with
    | 0 =>
        cases found
        refine ⟨List.length_replicate, fun off len inside => ?_⟩
        rw [slice_replicate _ inside]
        exact readAt_legacyConstant _ _ inside
    | 1 =>
        cases found
        refine ⟨List.length_replicate, fun off len inside => ?_⟩
        rw [slice_replicate _ inside]
        exact readAt_legacyConstant _ _ inside
    | _ + 2 => cases found

end DiskPartitions
