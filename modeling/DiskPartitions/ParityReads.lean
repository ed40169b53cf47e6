import DiskPartitions.AssembledArrays
import DiskPartitions.LegacyMembers
import DiskPartitions.RowRebuild

/-!
# RAID4, RAID5 and RAID6 reads

The data areas of an array's members encode a byte string: each data chunk of a
row is on the member the layout names, P is the exclusive or of the row's data
chunks, and at RAID6 Q is their sum weighted by powers of two.  Reading the
assembled array then gives the string back, whichever members assembly did
without.  The one exception is a RAID6 row that lost two data chunks whose
exponents agree modulo 255; such a row needs more than 255 members, and reading
a lost chunk of it fails.
-/

namespace DiskPartitions

open Slices BufferedReads Refusals Finset GaloisByte

/-! ## Encoded data areas -/

namespace MdArray

/-- Data chunks in a row. -/
def dataCount (array : MdArray) : Nat := array.slots.length - parityCount array.level

/-- Whole rows on a member. -/
def rowCount (array : MdArray) : Nat := array.superblock.componentSize / array.chunk

/-- The layout rows are placed by: RAID4 keeps parity last whatever it records. -/
def rowLayout (array : MdArray) : Nat :=
  if array.level = levelRaid4 then layoutParityLast else array.layout

/-- The member of data chunk `i` of a row. -/
def dataMember (array : MdArray) (stripe i : Nat) : Nat :=
  (parityMap array.level array.rowLayout array.slots.length stripe i).1

/-- The member of a row's P. -/
def parityMember (array : MdArray) (stripe : Nat) : Nat :=
  (parityMap array.level array.rowLayout array.slots.length stripe 0).2.1

/-- The member of a RAID6 row's Q. -/
def qMember (array : MdArray) (stripe : Nat) : Nat :=
  (parityMap array.level array.rowLayout array.slots.length stripe 0).2.2.getD 0

/-- Data chunk `i` of a row of the byte string. -/
def dataChunk (array : MdArray) (data : List UInt8) (stripe i : Nat) : List UInt8 :=
  slice data ((stripe * array.dataCount + i) * array.chunk) array.chunk

/-- Whether a slot holds a member. -/
def present (array : MdArray) (slot : Nat) : Bool := (array.slots.getD slot none).isSome

/-- The members' data areas encode a byte string. -/
structure EncodesParity (array : MdArray) (areas : Nat → List UInt8) (data : List UInt8) :
    Prop where
  length_data : data.length = array.size
  length_area : ∀ slot < array.slots.length,
    (areas slot).length = array.superblock.componentSize
  chunks : ∀ stripe < array.rowCount, ∀ i < array.dataCount,
    slice (areas (array.dataMember stripe i)) (stripe * array.chunk) array.chunk =
      array.dataChunk data stripe i
  parity : ∀ stripe < array.rowCount,
    slice (areas (array.parityMember stripe)) (stripe * array.chunk) array.chunk =
      (List.range array.dataCount).foldl
        (fun sum i => xorInto sum (array.dataChunk data stripe i))
        (List.replicate array.chunk 0)
  syndrome : array.level = levelRaid6 → ∀ stripe < array.rowCount,
    slice (areas (array.qMember stripe)) (stripe * array.chunk) array.chunk =
      (List.range array.dataCount).foldl
        (fun sum i => xorInto sum ((array.dataChunk data stripe i).map
          (double^[(qExponent array.layout array.slots.length stripe i).toNat])))
        (List.replicate array.chunk 0)

/-- Reads inside the data area of a member that is there succeed. -/
def HoldsAreas (array : MdArray) (areas : Nat → List UInt8) : Prop :=
  ∀ slot (m : Member), array.slots[slot]? = some (some m) → ∀ off len,
    off + len ≤ array.superblock.componentSize →
    m.dev.readAt (m.dataOffset + off) len = .ok (slice (areas slot) off len)

/-- A RAID6 chunk that is lost together with another data chunk of its row whose
exponent agrees with its own modulo 255. -/
def Unrecoverable (array : MdArray) (k : Nat) : Prop :=
  let stripe := k / array.dataCount
  let i := k % array.dataCount
  array.level = levelRaid6 ∧ array.present (array.dataMember stripe i) = false ∧
    ∃ y < array.dataCount, y ≠ i ∧ array.present (array.dataMember stripe y) = false ∧
      qExponent array.layout array.slots.length stripe y % 255 =
        qExponent array.layout array.slots.length stripe i % 255

end MdArray

/-! ## Counting members -/

/-- The places of a list where a test holds are as many as the items that pass it. -/
theorem card_filter_getD {α : Type} (items : List α) (fallback : α) (test : α → Bool) :
    ({i ∈ range items.length | test (items.getD i fallback) = true} : Finset Nat).card =
      items.countP test := by
  induction items using List.reverseRecOn with
  | nil => rfl
  | append_singleton items item ih =>
      have earlier : ({i ∈ range items.length |
            test ((items ++ [item]).getD i fallback) = true} : Finset Nat) =
          {i ∈ range items.length | test (items.getD i fallback) = true} := by
        apply filter_congr
        intro i inside
        rw [List.getD_append _ _ _ _ (mem_range.mp inside)]
      have last : (items ++ [item]).getD items.length fallback = item := by simp
      rw [List.length_append, List.length_singleton, range_add_one, filter_insert, last,
        earlier, List.countP_append]
      by_cases passes : test item = true
      · rw [if_pos passes, card_insert_of_notMem (by simp), ih]
        simp [passes]
      · rw [if_neg passes, ih]
        simp [passes]

theorem MdArray.card_absent (array : MdArray) :
    ({slot ∈ range array.slots.length | array.present slot = false} : Finset Nat).card +
      presentCount array.slots = array.slots.length := by
  have absent := card_filter_getD array.slots none fun m => !m.isSome
  have same : ({slot ∈ range array.slots.length | array.present slot = false} : Finset Nat) =
      {slot ∈ range array.slots.length | (!(array.slots.getD slot none).isSome) = true} := by
    apply filter_congr
    intro slot _
    simp [MdArray.present]
  have all := List.length_eq_countP_add_countP (l := array.slots) Option.isSome
  rw [same, absent, presentCount]
  simp only [Bool.not_eq_true] at all
  have negated : array.slots.countP (fun m => !m.isSome) =
      array.slots.countP fun m => decide (m.isSome = false) := by
    apply List.countP_congr
    intro m _
    simp
  omega

/-! ## The contents of one row -/

theorem getD_slice {items : List UInt8} {offset len i : Nat} (inside : i < len) :
    (slice items offset len).getD i default = items.getD (offset + i) default := by
  rw [List.getD_eq_getElem?_getD, getElem?_slice, if_pos inside, ← List.getD_eq_getElem?_getD]

theorem foldl_xorInto_buffer (indices : List Nat) (len : Nat) (start : Nat → UInt8)
    (content : Nat → Nat → UInt8) :
    indices.foldl (fun sum i => xorInto sum (buffer len (content i))) (buffer len start) =
      buffer len fun j => indices.foldl (fun b i => b ^^^ content i j) (start j) := by
  induction indices generalizing start with
  | nil => rfl
  | cons i indices ih => rw [List.foldl_cons, xorInto_buffer, ih]; rfl

theorem getD_buffer {len i : Nat} (content : Nat → UInt8) (inside : i < len) :
    (buffer len content).getD i default = content i := by
  simp [buffer, List.getD_eq_getElem?_getD, List.getElem?_range inside]

/-- Byte `j` of a slot's data from `off` on. -/
def areaByte (areas : Nat → List UInt8) (off slot j : Nat) : UInt8 :=
  (areas slot).getD (off + j) default

namespace MdArray

variable {array : MdArray} {areas : Nat → List UInt8} {data : List UInt8}

/-- Rows of whole chunks fit the members. -/
theorem row_fits {stripe within len : Nat} (row : stripe < array.rowCount)
    (inside : within + len ≤ array.chunk) :
    stripe * array.chunk + within + len ≤ array.superblock.componentSize := by
  have whole : array.rowCount * array.chunk ≤ array.superblock.componentSize :=
    Nat.div_mul_le_self _ _
  have next : (stripe + 1) * array.chunk ≤ array.rowCount * array.chunk :=
    Nat.mul_le_mul_right _ row
  rw [Nat.succ_mul] at next
  omega

theorem present_eq_true {slot : Nat} (there : array.present slot = true) :
    ∃ m, array.slots[slot]? = some (some m) := by
  unfold present at there
  rw [List.getD_eq_getElem?_getD] at there
  cases found : array.slots[slot]? with
  | none => simp [found] at there
  | some entry =>
      cases entry with
      | none => simp [found] at there
      | some m => exact ⟨m, rfl⟩

theorem rowReads (encoded : array.EncodesParity areas data) (holds : array.HoldsAreas areas)
    {stripe within len : Nat} (row : stripe < array.rowCount)
    (inside : within + len ≤ array.chunk) :
    RowReads array.readMember array.slots.length (stripe * array.chunk + within) len
      array.present (areaByte areas (stripe * array.chunk + within)) where
  reads slot bounded there := by
    obtain ⟨m, found⟩ := present_eq_true there
    have fits := row_fits row inside
    have entry : array.slots.getD slot none = some m := by
      rw [List.getD_eq_getElem?_getD, found, Option.getD_some]
    unfold readMember
    rw [entry]
    dsimp only
    rw [holds slot m found _ _ fits, ok_bind,
      slice_eq_buffer (by rw [encoded.length_area slot bounded]; exact fits)]
    rfl
  missing slot _ gone := by
    have entry : array.slots.getD slot none = none := by
      simpa [present] using gone
    unfold readMember
    rw [entry]

variable (encoded : array.EncodesParity areas data)
include encoded

/-- A data chunk's bytes are the string's. -/
theorem areaByte_data {stripe within i j : Nat} (row : stripe < array.rowCount)
    (chosen : i < array.dataCount) (inside : within + j < array.chunk) :
    areaByte areas (stripe * array.chunk + within) (array.dataMember stripe i) j =
      data.getD ((stripe * array.dataCount + i) * array.chunk + (within + j)) default := by
  unfold areaByte
  rw [Nat.add_assoc, ← getD_slice inside, encoded.chunks stripe row i chosen, dataChunk,
    getD_slice inside]

theorem dataChunk_eq_buffer (shape : ParityShape array) {stripe i : Nat}
    (row : stripe < array.rowCount) (chosen : i < array.dataCount) :
    array.dataChunk data stripe i = buffer array.chunk fun j =>
      data.getD ((stripe * array.dataCount + i) * array.chunk + j) default := by
  apply slice_eq_buffer
  have within : stripe * array.dataCount + i + 1 ≤ array.rowCount * array.dataCount := by
    have next : (stripe + 1) * array.dataCount ≤ array.rowCount * array.dataCount :=
      Nat.mul_le_mul_right _ row
    rw [Nat.succ_mul] at next
    omega
  have fits : (stripe * array.dataCount + i + 1) * array.chunk ≤
      array.rowCount * array.dataCount * array.chunk := Nat.mul_le_mul_right _ within
  have total : array.size = array.rowCount * array.dataCount * array.chunk := by
    rw [shape.size, Nat.mul_right_comm]
    rfl
  rw [Nat.succ_mul] at fits
  rw [encoded.length_data]
  omega

/-- Both syndromes of a row are sums over its data chunks, each scaled. -/
theorem mk_areaByte_sum (shape : ParityShape array) {stripe within j slot : Nat}
    {scale : Nat → UInt8 → UInt8} {weight : Nat → GaloisByte}
    (scales : ∀ i < array.dataCount, ∀ b, GaloisByte.mk (scale i b) = weight i * GaloisByte.mk b)
    (row : stripe < array.rowCount) (inside : within + j < array.chunk)
    (stored : slice (areas slot) (stripe * array.chunk) array.chunk =
      (List.range array.dataCount).foldl
        (fun sum i => xorInto sum ((array.dataChunk data stripe i).map (scale i)))
        (List.replicate array.chunk 0)) :
    GaloisByte.mk (areaByte areas (stripe * array.chunk + within) slot j) =
      ∑ i ∈ range array.dataCount, weight i *
        GaloisByte.mk (areaByte areas (stripe * array.chunk + within) (array.dataMember stripe i) j) := by
  have folded : (List.range array.dataCount).foldl
        (fun sum i => xorInto sum ((array.dataChunk data stripe i).map (scale i)))
        (List.replicate array.chunk 0) =
      buffer array.chunk fun j => (List.range array.dataCount).foldl (fun b i => b ^^^
        scale i (data.getD ((stripe * array.dataCount + i) * array.chunk + j) default)) 0 := by
    rw [replicate_eq_buffer, ← foldl_xorInto_buffer]
    apply List.foldl_ext
    intro sum i member
    rw [dataChunk_eq_buffer encoded shape row (List.mem_range.mp member), map_buffer]
  rw [folded] at stored
  have byte : areaByte areas (stripe * array.chunk + within) slot j =
      (List.range array.dataCount).foldl (fun b i => b ^^^ scale i (data.getD
        ((stripe * array.dataCount + i) * array.chunk + (within + j)) default)) 0 := by
    unfold areaByte
    rw [Nat.add_assoc, ← getD_slice inside, stored, getD_buffer _ inside]
  have adds : ∀ (b : UInt8) (i : Nat), GaloisByte.mk (b ^^^ scale i (data.getD
        ((stripe * array.dataCount + i) * array.chunk + (within + j)) default)) =
      GaloisByte.mk b + GaloisByte.mk (scale i (data.getD
        ((stripe * array.dataCount + i) * array.chunk + (within + j)) default)) :=
    fun b i => mk_xor b _
  rw [byte, mk_foldl_range adds, GaloisByte.mk_zero, zero_add]
  apply sum_congr rfl
  intro i member
  have chosen := mem_range.mp member
  rw [scales i chosen, areaByte_data encoded row chosen inside]

/-- P is the sum of the row's data. -/
theorem mk_areaByte_parity (shape : ParityShape array) {stripe within j : Nat}
    (row : stripe < array.rowCount) (inside : within + j < array.chunk) :
    GaloisByte.mk (areaByte areas (stripe * array.chunk + within) (array.parityMember stripe) j) =
      ∑ i ∈ range array.dataCount,
        GaloisByte.mk (areaByte areas (stripe * array.chunk + within)
          (array.dataMember stripe i) j) := by
  have stored : slice (areas (array.parityMember stripe)) (stripe * array.chunk) array.chunk =
      (List.range array.dataCount).foldl
        (fun sum i => xorInto sum ((array.dataChunk data stripe i).map fun b => b))
        (List.replicate array.chunk 0) := by
    simp only [List.map_id_fun', id_eq]
    exact encoded.parity stripe row
  have sums : GaloisByte.mk (areaByte areas (stripe * array.chunk + within)
        (array.parityMember stripe) j) =
      ∑ i ∈ range array.dataCount, 1 *
        GaloisByte.mk (areaByte areas (stripe * array.chunk + within)
          (array.dataMember stripe i) j) :=
    mk_areaByte_sum encoded shape (fun _ _ _ => (one_mul _).symm) row inside stored
  simpa only [one_mul] using sums

/-- Q is the weighted sum of the row's data. -/
theorem mk_areaByte_syndrome (shape : ParityShape array) (six : array.level = levelRaid6)
    {stripe within j : Nat} (row : stripe < array.rowCount) (inside : within + j < array.chunk) :
    GaloisByte.mk (areaByte areas (stripe * array.chunk + within) (array.qMember stripe) j) =
      ∑ i ∈ range array.dataCount, two ^ qExponent array.layout array.slots.length stripe i *
        GaloisByte.mk (areaByte areas (stripe * array.chunk + within)
          (array.dataMember stripe i) j) := by
  apply mk_areaByte_sum encoded shape _ row inside (encoded.syndrome six stripe row)
  intro i chosen b
  have two_lt : 2 < array.slots.length := by
    have := shape.several
    rwa [parityCount, if_pos six] at this
  have data : array.dataCount = array.slots.length - 2 := by
    rw [dataCount, parityCount, if_pos six]
  have exponent := (qExponent_spec (shape.known six) two_lt stripe).1 i (by omega)
  rw [mk_iterate_double, ← zpow_natCast, Int.toNat_of_nonneg exponent.1]

omit encoded in
theorem row_of_chunk (stripe : Nat) {i : Nat} (chosen : i < array.dataCount) :
    (stripe * array.dataCount + i) / array.dataCount = stripe := by
  rw [Nat.mul_comm, Nat.mul_add_div (by omega), Nat.div_eq_of_lt chosen, Nat.add_zero]

omit encoded in
theorem chunk_in_row (stripe : Nat) {i : Nat} (chosen : i < array.dataCount) :
    (stripe * array.dataCount + i) % array.dataCount = i := by
  rw [Nat.mul_comm, Nat.mul_add_mod, Nat.mod_eq_of_lt chosen]

/-! ## Reading a chunk -/

variable (holds : array.HoldsAreas areas)
include holds

/-- A chunk of a RAID4 or RAID5 array, from its member or from the others. -/
theorem readChunk_single (shape : ParityShape array) (single : array.level ≠ levelRaid6)
    {stripe i within len : Nat} (row : stripe < array.rowCount) (chosen : i < array.dataCount)
    (inside : within + len ≤ array.chunk) :
    readChunk array.striping array.readMember (stripe * array.dataCount + i) within len =
      .ok (buffer len (areaByte areas (stripe * array.chunk + within)
        (array.dataMember stripe i))) := by
  have reads := array.rowReads encoded holds row inside
  have count : array.dataCount = array.slots.length - 1 := by
    rw [dataCount, parityCount, if_neg single]
  have several : 1 < array.slots.length := by
    have := shape.several
    rwa [parityCount, if_neg single] at this
  obtain ⟨pd, syndromes, places⟩ := parityMap_row single several array.rowLayout stripe
  have bounded : array.dataMember stripe i < array.slots.length :=
    places.place_lt i (count ▸ chosen)
  have quotient := row_of_chunk stripe chosen
  have remainder := chunk_in_row stripe chosen
  unfold readChunk
  simp only [striping, shape.no_copies, if_neg single]
  rw [← count, quotient, remainder]
  change (array.readMember (array.dataMember stripe i) _ _ >>= _) = _
  cases there : array.present (array.dataMember stripe i) with
  | true => rw [reads.reads _ bounded there, ok_bind]
  | false =>
      rw [reads.missing _ bounded there, ok_bind]
      have q : (parityMap array.level array.rowLayout array.slots.length stripe i).2.2 = none := by
        rw [syndromes]
      have p : array.parityMember stripe = pd := by
        rw [parityMember, syndromes]
      change xorRow array.readMember (array.dataMember stripe i)
        (parityMap array.level array.rowLayout array.slots.length stripe i).2.2 _ _ _ _ = _
      rw [q]
      apply xorRow_rebuilds reads places (count ▸ chosen)
      · -- one member may be missing, and it is the chunk's own
        intro slot below other
        by_contra gone
        rw [Bool.not_eq_true] at gone
        have absent := array.card_absent
        have enough := shape.enough
        rw [parityCount, if_neg single] at enough
        have pair : ({array.dataMember stripe i, slot} : Finset Nat) ⊆
            {slot ∈ range array.slots.length | array.present slot = false} := by
          intro member either
          rw [mem_insert, mem_singleton] at either
          rw [mem_filter, mem_range]
          obtain rfl | rfl := either
          · exact ⟨bounded, there⟩
          · exact ⟨below, gone⟩
        have distinct : array.dataMember stripe i ≠ slot := Ne.symm other
        have two := card_le_card pair
        rw [card_pair distinct] at two
        omega
      · intro j below
        rw [← p, ← count]
        exact mk_areaByte_parity encoded shape row (by omega)

/-- A chunk of a RAID6 array, from its member or from the rest of the row. -/
theorem readChunk_double (shape : ParityShape array) (six : array.level = levelRaid6)
    {stripe i within len : Nat} (row : stripe < array.rowCount) (chosen : i < array.dataCount)
    (inside : within + len ≤ array.chunk) :
    (array.Unrecoverable (stripe * array.dataCount + i) →
        ∃ error, readChunk array.striping array.readMember (stripe * array.dataCount + i)
          within len = .error error) ∧
      (¬ array.Unrecoverable (stripe * array.dataCount + i) →
        readChunk array.striping array.readMember (stripe * array.dataCount + i) within len =
          .ok (buffer len (areaByte areas (stripe * array.chunk + within)
            (array.dataMember stripe i)))) := by
  have reads := array.rowReads encoded holds row inside
  have count : array.dataCount = array.slots.length - 2 := by
    rw [dataCount, parityCount, if_pos six]
  have several : 2 < array.slots.length := by
    have := shape.several
    rwa [parityCount, if_pos six] at this
  have layout : array.rowLayout = array.layout := by
    rw [rowLayout, if_neg]
    rw [six]
    decide
  have data : ∀ i, array.dataMember stripe i =
      (raid6Map array.layout array.slots.length stripe i).1 := by
    intro i
    rw [dataMember, layout, six]
    rfl
  have p : array.parityMember stripe =
      (raid6Map array.layout array.slots.length stripe 0).2.1 := by
    rw [parityMember, layout, six]
    rfl
  have q : array.qMember stripe = (raid6Map array.layout array.slots.length stripe 0).2.2 := by
    rw [qMember, layout, six]
    rfl
  have known := shape.known six
  obtain ⟨_, _, -, places⟩ := raid6Map_row known several stripe
  have bounded : array.dataMember stripe i < array.slots.length := by
    rw [data]
    exact places.place_lt i (count ▸ chosen)
  have quotient := row_of_chunk stripe chosen
  have remainder := chunk_in_row stripe chosen
  have started : ∀ answer, array.readMember (array.dataMember stripe i)
      (stripe * array.chunk + within) len = .ok answer →
      readChunk array.striping array.readMember (stripe * array.dataCount + i) within len =
        answer.elim (rebuildRaid6 array.striping array.readMember stripe i
          (stripe * array.chunk + within) len) .ok := by
    intro answer answered
    unfold readChunk
    simp only [striping, shape.no_copies, if_pos six]
    rw [← count, quotient, remainder]
    change (array.readMember (array.dataMember stripe i) (stripe * array.chunk + within) len >>= _)
      = _
    rw [answered, ok_bind]
    cases answer with
    | none => rfl
    | some bytes => rfl
  cases there : array.present (array.dataMember stripe i) with
  | true =>
      rw [started _ (reads.reads _ bounded there), Option.elim_some]
      constructor
      · rintro ⟨-, gone, -⟩
        rw [quotient, remainder, there] at gone
        cases gone
      · intro _
        rfl
  | false =>
      rw [started _ (reads.missing _ bounded there), Option.elim_none]
      have rowOf6 : Raid6Row array.readMember array.layout array.slots.length stripe
          (stripe * array.chunk + within) len array.present
          (areaByte areas (stripe * array.chunk + within)) := by
        refine ⟨known, several, reads, ?_, ?_, ?_⟩
        · have absent := array.card_absent
          have enough := shape.enough
          rw [parityCount, if_pos six] at enough
          omega
        · intro j below
          rw [← p, ← count, mk_areaByte_parity encoded shape row (by omega)]
          simp only [data]
        · intro j below
          rw [← q, ← count, mk_areaByte_syndrome encoded shape six row (by omega)]
          simp only [data]
      have collides : array.Unrecoverable (stripe * array.dataCount + i) ↔
          Collide array.layout array.slots.length stripe array.present
            (fun i => (raid6Map array.layout array.slots.length stripe i).1) i := by
        simp only [Unrecoverable, quotient, remainder]
        constructor
        · rintro ⟨-, -, y, bound, other, gone, same⟩
          rw [data] at gone
          exact ⟨y, count ▸ bound, other, gone, by omega⟩
        · rintro ⟨y, bound, other, gone, same⟩
          exact ⟨six, there, y, count.symm ▸ bound, other, (data y).symm ▸ gone, by omega⟩
      rw [collides, data]
      exact rowOf6.rebuild rfl rfl (count ▸ chosen) (data i ▸ there)

/-- Any part of a chunk of the array. -/
theorem readChunk_parity (shape : ParityShape array) {k within len : Nat}
    (bounded : k < array.rowCount * array.dataCount) (inside : within + len ≤ array.chunk) :
    (array.Unrecoverable k → ∃ error,
        readChunk array.striping array.readMember k within len = .error error) ∧
      (¬ array.Unrecoverable k → readChunk array.striping array.readMember k within len =
        .ok (slice data (k * array.chunk + within) len)) := by
  have positive : 0 < array.dataCount := by
    have := shape.several
    unfold dataCount
    omega
  have chosen : k % array.dataCount < array.dataCount := Nat.mod_lt _ positive
  have row : k / array.dataCount < array.rowCount := by
    rw [Nat.div_lt_iff_lt_mul positive]
    exact bounded
  have whole : k / array.dataCount * array.dataCount + k % array.dataCount = k :=
    Nat.div_add_mod' k array.dataCount
  -- the chunk's bytes on its member are the string's
  have stored : buffer len (areaByte areas (k / array.dataCount * array.chunk + within)
      (array.dataMember (k / array.dataCount) (k % array.dataCount))) =
      slice data (k * array.chunk + within) len := by
    have fits : k * array.chunk + array.chunk ≤ array.size := by
      have next : (k + 1) * array.chunk ≤ array.rowCount * array.dataCount * array.chunk :=
        Nat.mul_le_mul_right _ bounded
      rw [Nat.succ_mul] at next
      rw [shape.size, Nat.mul_right_comm]
      exact next
    rw [slice_eq_buffer (by rw [encoded.length_data]; omega)]
    apply buffer_congr
    intro j below
    rw [areaByte_data encoded row chosen (by omega), whole, Nat.add_assoc]
  by_cases six : array.level = levelRaid6
  · have read := readChunk_double encoded holds shape six row chosen inside
    rwa [whole, stored] at read
  · have read := readChunk_single encoded holds shape six row chosen inside
    rw [whole, stored] at read
    constructor
    · rintro ⟨level, -⟩
      exact absurd level six
    · intro _
      exact read

/-- The piece of a read at one position. -/
theorem readPiece_parity (shape : ParityShape array) {position left : Nat} (some_left : 0 < left)
    (inside : position + left ≤ array.size) :
    PieceOf data (fun place => array.Unrecoverable (place / array.chunk)) position left
      (array.readPiece position left)
      (min (array.chunk - position % array.chunk) left) := by
  have chunk_pos := shape.chunk_pos
  have within := Nat.mod_lt position chunk_pos
  have split := Nat.div_add_mod' position array.chunk
  have bounded : position / array.chunk < array.rowCount * array.dataCount := by
    rw [Nat.div_lt_iff_lt_mul chunk_pos]
    have total : array.size = array.rowCount * array.dataCount * array.chunk := by
      rw [shape.size, Nat.mul_right_comm]
      rfl
    omega
  obtain ⟨fails, reads⟩ := readChunk_parity encoded holds shape bounded
    (by omega : position % array.chunk + min (array.chunk - position % array.chunk) left ≤
      array.chunk)
  rw [split] at reads
  have sameChunk : ∀ place, position ≤ place →
      place < position + min (array.chunk - position % array.chunk) left →
      place / array.chunk = position / array.chunk := by
    intro place after before
    rw [Nat.div_eq_iff chunk_pos]
    omega
  refine ⟨by omega, by omega, ?_, ?_⟩
  · rintro ⟨place, after, before, lost⟩
    rw [sameChunk place after before] at lost
    exact fails lost
  · intro clear
    exact reads (clear position (Nat.le_refl position) (by omega))

end MdArray

/-- A read of an assembled RAID4, RAID5 or RAID6 array returns the encoded bytes,
unless it meets a lost chunk that another lost one of its row, with the same
exponent modulo 255, makes unrecoverable.  That needs more than 255 members, and
the read fails. -/
theorem readAt_parityArray {devices : List BlockRead} {array : MdArray}
    {areas : Nat → List UInt8} {data : List UInt8}
    (assembled : assemble devices = .ok array) (parity : IsParityLevel array.level)
    (encoded : array.EncodesParity areas data) (holds : array.HoldsAreas areas)
    {offset len : Nat} (inside : offset + len ≤ array.size) :
    ((∃ place, offset ≤ place ∧ place < offset + len ∧
          array.Unrecoverable (place / array.chunk)) →
        255 < array.slots.length ∧ ∃ error, array.readAt offset len = .error error) ∧
      ((∀ place, offset ≤ place → place < offset + len →
          ¬ array.Unrecoverable (place / array.chunk)) →
        array.readAt offset len = .ok (slice data offset len)) := by
  have shape := (assembled_of_assemble assembled).parityShape parity
  have pieces : ∀ position left, 0 < left → position + left = offset + len →
      ∃ taken, PieceOf data (fun place => array.Unrecoverable (place / array.chunk)) position left
        (array.readPiece position left) taken :=
    fun position left some_left ends =>
      ⟨_, MdArray.readPiece_parity encoded holds shape some_left (by omega)⟩
  obtain ⟨fails, reads⟩ := readPieces_spec (by rw [encoded.length_data]; exact inside) pieces
    (Nat.le_refl len) rfl
  have whole : array.readAt offset len = readPieces array.readPiece len offset len := by
    have apart : array.level ≠ levelRaid1 ∧ ¬ (array.level = levelRaid0 ∨
        array.level = levelLinear) := by
      obtain four | five | six := parity
      · rw [four]
        decide
      · rw [five]
        decide
      · rw [six]
        decide
    unfold MdArray.readAt
    rw [if_neg (by omega), if_neg apart.1, if_neg apart.2]
    rfl
  rw [whole]
  refine ⟨?_, reads⟩
  rintro ⟨place, after, before, lost⟩
  refine ⟨?_, fails ⟨place, after, before, lost⟩⟩
  obtain ⟨six, -, y, bound, other, -, same⟩ := lost
  have count : array.dataCount = array.slots.length - 2 := by
    rw [MdArray.dataCount, parityCount, if_pos six]
  have several : 2 < array.slots.length := by
    have := shape.several
    rwa [parityCount, if_pos six] at this
  have chosen : place / array.chunk % array.dataCount < array.dataCount :=
    Nat.mod_lt _ (by omega)
  have congruent : (qExponent array.layout array.slots.length
        (place / array.chunk / array.dataCount) y -
      qExponent array.layout array.slots.length (place / array.chunk / array.dataCount)
        (place / array.chunk % array.dataCount)) % 255 = 0 := by
    omega
  exact members_of_congruent (shape.known six) several (count ▸ chosen) (count ▸ bound)
    (Ne.symm other) congruent

/-! ## A RAID5 that lost a member -/

/-- The superblock of the three members of a RAID5 with one row of 1 KiB chunks. -/
def raid5Words (slot : Nat) : LegacyWords where
  level := 5
  sizeKib := 1
  raidDisks := 3
  events := 7
  layout := layoutLeftSymmetric
  chunkBytes := 1024
  raidDisk := slot
  state := 6

/-- A member that holds one byte throughout. -/
def raid5Member (slot : Nat) (byte : UInt8) : BlockRead :=
  legacyMember (raid5Words slot) fun _ => byte

/-- The array of members 0 and 2, which hold a data chunk and the parity. -/
def degradedRaid5 : MdArray where
  slots := [some { dev := raid5Member 0 1, dataOffset := 0, dataSize := 65536 }, none,
    some { dev := raid5Member 2 3, dataOffset := 0, dataSize := 65536 }]
  level := 5
  layout := layoutLeftSymmetric
  chunk := 1024
  size := 2048
  zones := []
  raid10 := none
  superblock := (raid5Words 0).superblock

/-- Two chunks of data, of which the second is on the member that is lost. -/
def raid5Data : List UInt8 := List.replicate 1024 1 ++ List.replicate 1024 2

def raid5Areas (slot : Nat) : List UInt8 := List.replicate 1024 (UInt8.ofNat (slot + 1))

theorem raid5Words_fits {slot : Nat} (small : slot < 3) : (raid5Words slot).Fits := by
  constructor <;> simp [raid5Words, layoutLeftSymmetric]
  omega

theorem assemble_degradedRaid5 :
    assemble [raid5Member 0 1, raid5Member 2 3] = .ok degradedRaid5 := by
  have reads : ∀ entry ∈ [(raid5Member 0 1, (raid5Words 0).superblock),
      (raid5Member 2 3, (raid5Words 2).superblock)], ∀ member,
      readSuperblockOf entry.1 member = .ok (some entry.2) := by
    intro entry inside member
    simp only [List.mem_cons, List.not_mem_nil, or_false] at inside
    obtain rfl | rfl := inside
    · exact readSuperblockOf_legacyMember (raid5Words_fits (by decide))
        (plainArea_const (by decide)) member
    · exact readSuperblockOf_legacyMember (raid5Words_fits (by decide))
        (plainArea_const (by decide)) member
  have found := readMembers_eq reads
  simp only [List.map_cons, List.map_nil] at found
  unfold assemble
  rw [refuseIf_of_not (by simp), ok_bind, found, ok_bind]
  rfl

theorem raid5Data_chunk {i : Nat} (chosen : i < 2) :
    slice raid5Data (i * 1024) 1024 = List.replicate 1024 (UInt8.ofNat (i + 1)) := by
  have half : (List.replicate 1024 (1 : UInt8)).length = 1024 := List.length_replicate
  obtain rfl | rfl : i = 0 ∨ i = 1 := by omega
  · rw [raid5Data, slice_append_left (by rw [half]), slice_replicate _ (by decide)]
    rfl
  · rw [raid5Data, slice_append_right (by rw [half]), half, slice_replicate _ (by decide)]
    rfl

theorem degradedRaid5_encoded : degradedRaid5.EncodesParity raid5Areas raid5Data := by
  have rows : degradedRaid5.rowCount = 1 := by decide
  have count : degradedRaid5.dataCount = 2 := by decide
  have width : degradedRaid5.chunk = 1024 := rfl
  have members : ∀ i < 2, degradedRaid5.dataMember 0 i = i := by decide
  have parityPlace : degradedRaid5.parityMember 0 = 2 := by decide
  have stored : ∀ slot, slice (raid5Areas slot) 0 1024 = raid5Areas slot := by
    intro slot
    exact slice_replicate _ (by decide)
  have chunk : ∀ i < 2, degradedRaid5.dataChunk raid5Data 0 i = raid5Areas i := by
    intro i chosen
    rw [MdArray.dataChunk, count, Nat.zero_mul, Nat.zero_add, width, raid5Data_chunk chosen]
    rfl
  refine ⟨?_, ?_, ?_, ?_, ?_⟩
  · rw [raid5Data, List.length_append, List.length_replicate, List.length_replicate]
    rfl
  · intro slot _
    exact List.length_replicate
  · intro stripe row i chosen
    rw [rows] at row
    rw [count] at chosen
    obtain rfl : stripe = 0 := by omega
    rw [members i chosen, chunk i chosen, Nat.zero_mul, width, stored]
  · intro stripe row
    rw [rows] at row
    obtain rfl : stripe = 0 := by omega
    have pair : List.range degradedRaid5.dataCount = [0, 1] := by
      rw [count]
      rfl
    rw [parityPlace, pair, List.foldl_cons, List.foldl_cons, List.foldl_nil, chunk 0 (by decide),
      chunk 1 (by decide), Nat.zero_mul, width, stored]
    have sum : xorInto (xorInto (List.replicate 1024 0) (raid5Areas 0)) (raid5Areas 1) =
        List.replicate 1024 ((0 ^^^ UInt8.ofNat 1) ^^^ UInt8.ofNat 2) := by
      simp only [xorInto, raid5Areas, List.zipWith_replicate, Nat.min_self, Nat.zero_add]
    rw [sum]
    rfl
  · intro six
    exact absurd six (by decide)

theorem degradedRaid5_holds : degradedRaid5.HoldsAreas raid5Areas := by
  intro slot m found off len inside
  have inside : off + len ≤ 1024 := inside
  have slices : ∀ slot, slice (raid5Areas slot) off len =
      List.replicate len (UInt8.ofNat (slot + 1)) := fun slot => slice_replicate _ inside
  match slot with
  | 0 =>
      cases found
      rw [slices]
      exact readAt_legacyConstant _ _ (by omega)
  | 1 => cases found
  | 2 =>
      cases found
      rw [slices]
      exact readAt_legacyConstant _ _ (by omega)
  | _ + 3 => cases found

/-- A read across the two chunks, the second of which is rebuilt from parity. -/
theorem readAt_degradedRaid5 :
    assemble [raid5Member 0 1, raid5Member 2 3] = .ok degradedRaid5 ∧
      degradedRaid5.readAt 1000 100 = .ok (slice raid5Data 1000 100) := by
  refine ⟨assemble_degradedRaid5, ?_⟩
  apply (readAt_parityArray assemble_degradedRaid5 (.inr (.inl rfl)) degradedRaid5_encoded
    degradedRaid5_holds (by decide)).2
  rintro place - - ⟨six, -⟩
  exact absurd six (by decide)

end DiskPartitions
