import DiskPartitions.BufferedReads
import DiskPartitions.ErasureCodes
import DiskPartitions.MdReads
import DiskPartitions.ParityRows

/-!
# Rebuilding a chunk of a parity row

One row of an array, read at one offset: `present` says which members are
there and `content slot` what each of them holds.  When the row's syndromes are
what they should be, the code rebuilds a lost data chunk from what is left,
through P, through Q, or through both.  Two lost data chunks whose exponents
agree modulo 255 cannot be told apart, and are refused.
-/

namespace DiskPartitions

open BufferedReads ErasureCodes Refusals Finset GaloisByte

/-- What the members of a row answer at one offset. -/
structure RowReads (member : ReadMember) (n off len : Nat) (present : Nat → Bool)
    (content : Nat → Nat → UInt8) : Prop where
  reads : ∀ slot < n, present slot = true →
    member slot off len = .ok (some (buffer len (content slot)))
  missing : ∀ slot < n, present slot = false → member slot off len = .ok none

/-! ## The folds -/

/-- A fold that adds a term at each step adds their sum. -/
theorem mk_foldl_range {step : UInt8 → Nat → UInt8} {term : Nat → GaloisByte}
    (adds : ∀ b i, mk (step b i) = mk b + term i) (start : UInt8) (n : Nat) :
    mk ((List.range n).foldl step start) = mk start + ∑ i ∈ range n, term i := by
  induction n with
  | zero => simp
  | succ n ih =>
      rw [List.range_succ, List.foldl_append, List.foldl_cons, List.foldl_nil, adds, ih,
        sum_range_succ, add_assoc]

theorem xorInto_buffer (len : Nat) (first second : Nat → UInt8) :
    xorInto (buffer len first) (buffer len second) =
      buffer len fun place => first place ^^^ second place :=
  zipWith_buffer _ len first second

theorem xorRow_eq {member : ReadMember} {dd off len : Nat} {qd : Option Nat}
    {content : Nat → Nat → UInt8} {slots : List Nat}
    (reads : ∀ slot ∈ slots, ¬ (slot = dd ∨ some slot = qd) →
      member slot off len = .ok (some (buffer len (content slot)))) (acc : Nat → UInt8) :
    xorRow member dd qd off len slots (buffer len acc) =
      .ok (buffer len fun place => slots.foldl (fun b slot =>
        if slot = dd ∨ some slot = qd then b else b ^^^ content slot place) (acc place)) := by
  induction slots generalizing acc with
  | nil => rfl
  | cons slot slots ih =>
      have rest : ∀ other ∈ slots, ¬ (other = dd ∨ some other = qd) →
          member other off len = .ok (some (buffer len (content other))) :=
        fun other inside => reads other (List.mem_cons_of_mem slot inside)
      rw [xorRow]
      by_cases skipped : slot = dd ∨ some slot = qd
      · rw [if_pos skipped, ih rest]
        simp only [List.foldl_cons, if_pos skipped]
      · rw [if_neg skipped, reads slot List.mem_cons_self skipped, ok_bind]
        dsimp only
        rw [xorInto_buffer, ih rest]
        simp only [List.foldl_cons, if_neg skipped]

/-- Taking a list of data chunks out of the syndromes. -/
theorem foldlM_take {member : ReadMember} {layout n stripe off len : Nat} {present : Nat → Bool}
    {content : Nat → Nat → UInt8} {place : Nat → Nat} {chunks : List Nat}
    (row : RowReads member n off len present content)
    (places : ∀ i ∈ chunks, (raid6Map layout n stripe i).1 = place i ∧ place i < n)
    (p q : Nat → UInt8) (missing : List Nat) :
    chunks.foldlM (Syndromes.take member layout n stripe off len)
        { p := buffer len p, q := buffer len q, missing } =
      .ok {
        p := buffer len fun j => chunks.foldl (fun b i =>
          if present (place i) then b ^^^ content (place i) j else b) (p j)
        q := buffer len fun j => chunks.foldl (fun b i =>
          if present (place i) then
            b ^^^ gfMul (gfPow2 (qExponent layout n stripe i)) (content (place i) j)
          else b) (q j)
        missing := missing ++ chunks.filter fun i => !present (place i) } := by
  induction chunks generalizing p q missing with
  | nil => simp [pure_eq_ok]
  | cons i chunks ih =>
      obtain ⟨placed, bounded⟩ := places i List.mem_cons_self
      have rest : ∀ j ∈ chunks, (raid6Map layout n stripe j).1 = place j ∧ place j < n :=
        fun j inside => places j (List.mem_cons_of_mem i inside)
      have slot : (parityMap levelRaid6 layout n stripe i).1 = place i := by
        rw [← placed]
        rfl
      rw [List.foldlM_cons, Syndromes.take, slot]
      cases there : present (place i) with
      | true =>
          rw [row.reads _ bounded there, ok_bind]
          dsimp only
          rw [ok_bind, xorInto_buffer, map_buffer, xorInto_buffer, ih rest]
          simp [there]
      | false =>
          rw [row.missing _ bounded there, ok_bind]
          dsimp only
          rw [ok_bind, ih rest]
          simp [there, List.append_assoc]

theorem mk_injective {a b : UInt8} (same : mk a = mk b) : a = b := congrArg byte same

/-! ## Through parity alone -/

/-- The other members of a RAID4 or RAID5 row add up to the lost chunk. -/
theorem xorRow_rebuilds {member : ReadMember} {n off len x pd : Nat} {present : Nat → Bool}
    {content : Nat → Nat → UInt8} {place : Nat → Nat}
    (reads : RowReads member n off len present content) (row : RowOf n (n - 1) place [pd])
    (chosen : x < n - 1) (others : ∀ slot < n, slot ≠ place x → present slot = true)
    (parity : ∀ j < len, mk (content pd j) = ∑ i ∈ range (n - 1), mk (content (place i) j)) :
    xorRow member (place x) none off len (List.range n) (List.replicate len 0) =
      .ok (buffer len (content (place x))) := by
  have readsOthers : ∀ slot ∈ List.range n, ¬ (slot = place x ∨ some slot = none) →
      member slot off len = .ok (some (buffer len (content slot))) := by
    intro slot inside kept
    rw [not_or] at kept
    have bounded := List.mem_range.mp inside
    exact reads.reads slot bounded (others slot bounded kept.1)
  rw [replicate_eq_buffer, xorRow_eq readsOthers]
  apply congrArg Except.ok
  apply buffer_congr
  intro j inside
  apply mk_injective
  have adds : ∀ (b : UInt8) (slot : Nat),
      mk (if slot = place x ∨ some slot = none then b else b ^^^ content slot j) =
        mk b + if slot ≠ place x then mk (content slot j) else 0 := by
    intro b slot
    by_cases lost : slot = place x
    · rw [if_pos (.inl lost), if_neg (by simpa using lost), add_zero]
    · rw [if_neg (by simpa using lost), if_pos lost, mk_xor]
  rw [mk_foldl_range adds, GaloisByte.mk_zero, zero_add, ← sum_filter, filter_ne']
  -- the whole row adds up to zero, so the rest of it adds up to the lost chunk
  have whole : ∑ slot ∈ range n, mk (content slot j) = 0 := by
    rw [row.sum_range, ← parity j inside]
    simp [CharTwo.add_self_eq_zero]
  have member' : place x ∈ range n := mem_range.mpr (row.place_lt x chosen)
  rw [← add_sum_erase _ _ member'] at whole
  exact (CharTwo.add_eq_zero.mp whole).symm

/-! ## Through two syndromes -/

section Raid6

variable {member : ReadMember} {n off len stripe x layout pd qd : Nat} {present : Nat → Bool}
  {content : Nat → Nat → UInt8} {place : Nat → Nat}

/-- The data chunks of a row whose members are missing. -/
def lostChunks (present : Nat → Bool) (place : Nat → Nat) (data : Nat) : List Nat :=
  (List.range data).filter fun i => !present (place i)

/-- P with the present data chunks taken out. -/
def remainderP (present : Nat → Bool) (content : Nat → Nat → UInt8) (place : Nat → Nat)
    (pd data j : Nat) : UInt8 :=
  (List.range data).foldl (fun b i =>
    if present (place i) then b ^^^ content (place i) j else b)
    (if present pd then content pd j else 0)

/-- Q with the present data chunks taken out. -/
def remainderQ (present : Nat → Bool) (content : Nat → Nat → UInt8) (place : Nat → Nat)
    (exponent : Nat → Int) (qd data j : Nat) : UInt8 :=
  (List.range data).foldl (fun b i =>
    if present (place i) then b ^^^ gfMul (gfPow2 (exponent i)) (content (place i) j) else b)
    (if present qd then content qd j else 0)

/-- What the code's loop over a row leaves to be solved. -/
theorem rebuildRaid6_eq {s : Striping} (members : s.members = n) (same : s.layout = layout)
    (reads : RowReads member n off len present content)
    (syndromes : ∀ i, (raid6Map layout n stripe i).2 = (pd, qd))
    (row : RowOf n (n - 2) place [pd, qd])
    (places : ∀ i, (raid6Map layout n stripe i).1 = place i) :
    rebuildRaid6 s member stripe x off len =
      solveRow layout n stripe x (present pd) (present qd) {
        p := buffer len (remainderP present content place pd (n - 2))
        q := buffer len (remainderQ present content place (qExponent layout n stripe) qd (n - 2))
        missing := lostChunks present place (n - 2) } := by
  have answers : ∀ slot < n, member slot off len =
      .ok (if present slot then some (buffer len (content slot)) else none) := by
    intro slot bounded
    cases there : present slot with
    | true => rw [reads.reads slot bounded there, if_pos rfl]
    | false =>
        rw [reads.missing slot bounded there]
        rfl
  have stored : ∀ slot, (if present slot then some (buffer len (content slot)) else none).getD
      (List.replicate len 0) = buffer len fun j => if present slot then content slot j else 0 := by
    intro slot
    cases present slot with
    | true => rfl
    | false => exact replicate_eq_buffer len 0
  have there : ∀ slot, (if present slot then some (buffer len (content slot)) else none).isSome =
      present slot := by
    intro slot
    cases present slot <;> rfl
  have pdPlace : (parityMap levelRaid6 layout n stripe 0).2.1 = pd := by
    change (raid6Map layout n stripe 0).2.1 = pd
    rw [syndromes]
  have qdPlace : (parityMap levelRaid6 layout n stripe 0).2.2.getD 0 = qd := by
    change (raid6Map layout n stripe 0).2.2 = qd
    rw [syndromes]
  have bounded : ∀ i ∈ List.range (n - 2), (raid6Map layout n stripe i).1 = place i ∧
      place i < n :=
    fun i inside => ⟨places i, row.place_lt i (List.mem_range.mp inside)⟩
  unfold rebuildRaid6
  simp only [members, same, pdPlace, qdPlace]
  rw [answers pd (row.syndrome_lt pd (by simp)), ok_bind,
    answers qd (row.syndrome_lt qd (by simp)), ok_bind, stored, stored, there, there,
    foldlM_take reads bounded, ok_bind]
  rfl

theorem mem_lostChunks {data i : Nat} :
    i ∈ lostChunks present place data ↔ i < data ∧ present (place i) = false := by
  simp [lostChunks]

theorem lostChunks_toFinset (data : Nat) :
    (lostChunks present place data).toFinset =
      {i ∈ range data | present (place i) = false} := by
  apply Finset.ext
  intro i
  rw [List.mem_toFinset, mem_lostChunks, mem_filter, mem_range]

/-- With every present data chunk taken out, P is the sum of the lost ones. -/
theorem mk_remainderP {data j : Nat} (there : present pd = true)
    (parity : mk (content pd j) = ∑ i ∈ range data, mk (content (place i) j)) :
    mk (remainderP present content place pd data j) =
      ∑ i ∈ (lostChunks present place data).toFinset, mk (content (place i) j) := by
  have adds : ∀ (b : UInt8) (i : Nat),
      mk (if present (place i) then b ^^^ content (place i) j else b) =
        mk b + if present (place i) then mk (content (place i) j) else 0 := by
    intro b i
    cases present (place i) with
    | true => rfl
    | false => exact (add_zero _).symm
  rw [remainderP, mk_foldl_range adds, if_pos there, parity,
    sum_add_sum_kept (range data) (fun i => present (place i)), lostChunks_toFinset]

/-- With every present data chunk taken out, Q is the weighted sum of the lost ones. -/
theorem mk_remainderQ {data j : Nat} {exponent : Nat → Int} (there : present qd = true)
    (syndrome : mk (content qd j) =
      ∑ i ∈ range data, two ^ exponent i * mk (content (place i) j)) :
    mk (remainderQ present content place exponent qd data j) =
      ∑ i ∈ (lostChunks present place data).toFinset,
        two ^ exponent i * mk (content (place i) j) := by
  have adds : ∀ (b : UInt8) (i : Nat),
      mk (if present (place i) then
          b ^^^ gfMul (gfPow2 (exponent i)) (content (place i) j) else b) =
        mk b + if present (place i) then two ^ exponent i * mk (content (place i) j) else 0 := by
    intro b i
    cases present (place i) with
    | true => rw [if_pos rfl, if_pos rfl, mk_xor, mk_gfMul, mk_gfPow2]
    | false => exact (add_zero _).symm
  rw [remainderQ, mk_foldl_range adds, if_pos there, syndrome,
    sum_add_sum_kept (range data) (fun i => present (place i)), lostChunks_toFinset]

/-- With at most two members missing, one of them the chunk's: no other data
chunk is lost and P or Q is there, or one other is and both are there. -/
theorem lostChunks_cases (row : RowOf n (n - 2) place [pd, qd]) (chosen : x < n - 2)
    (lost : present (place x) = false)
    (few : ({slot ∈ range n | present slot = false} : Finset Nat).card ≤ 2) :
    (lostChunks present place (n - 2) = [x] ∧ (present pd = true ∨ present qd = true)) ∨
      ∃ y, y < n - 2 ∧ y ≠ x ∧ present (place y) = false ∧ present pd = true ∧
        present qd = true ∧
        (lostChunks present place (n - 2) = [x, y] ∨ lostChunks present place (n - 2) = [y, x]) := by
  have noThird : ∀ r < n, ∀ s < n, ∀ t < n, r ≠ s → r ≠ t → s ≠ t → present r = false →
      present s = false → present t = true := by
    intro r rBound s sBound t tBound rs rt st rLost sLost
    by_contra tLost
    rw [Bool.not_eq_true] at tLost
    have more : 2 < ({slot ∈ range n | present slot = false} : Finset Nat).card := by
      rw [two_lt_card]
      refine ⟨r, ?_, s, ?_, t, ?_, rs, rt, st⟩
      all_goals simp [*]
    omega
  have apart : ∀ i < n - 2, place i ≠ pd ∧ place i ≠ qd := by
    intro i bounded
    simpa using row.apart i bounded
  have distinct : pd ≠ qd := by simpa using row.nodup
  have pBound : pd < n := row.syndrome_lt pd (by simp)
  have qBound : qd < n := row.syndrome_lt qd (by simp)
  have chunks : ∀ i ∈ lostChunks present place (n - 2), i < n - 2 ∧ present (place i) = false :=
    fun i member => mem_lostChunks.mp member
  have nodup : (lostChunks present place (n - 2)).Nodup := List.nodup_range.filter _
  have member : x ∈ lostChunks present place (n - 2) := mem_lostChunks.mpr ⟨chosen, lost⟩
  have xBound := row.place_lt x chosen
  match found : lostChunks present place (n - 2) with
  | [] =>
      rw [found] at member
      cases member
  | [a] =>
      rw [found, List.mem_singleton] at member
      subst member
      refine .inl ⟨rfl, ?_⟩
      by_contra neither
      rw [not_or, Bool.not_eq_true, Bool.not_eq_true] at neither
      have := noThird _ xBound pd pBound qd qBound (apart x chosen).1 (apart x chosen).2 distinct
        lost neither.1
      rw [neither.2] at this
      cases this
  | [a, b] =>
      rw [found] at chunks nodup member
      obtain ⟨aBound, aLost⟩ := chunks a (by simp)
      obtain ⟨bBound, bLost⟩ := chunks b (by simp)
      have differ : a ≠ b := by simpa using nodup
      have elsewhere : place a ≠ place b := fun same => differ (row.injective a aBound b bBound same)
      have haveP := noThird _ (row.place_lt a aBound) _ (row.place_lt b bBound) pd pBound elsewhere
        (apart a aBound).1 (apart b bBound).1 aLost bLost
      have haveQ := noThird _ (row.place_lt a aBound) _ (row.place_lt b bBound) qd qBound elsewhere
        (apart a aBound).2 (apart b bBound).2 aLost bLost
      simp only [List.mem_cons, List.not_mem_nil, or_false] at member
      obtain rfl | rfl := member
      · exact .inr ⟨b, bBound, differ.symm, bLost, haveP, haveQ, .inl rfl⟩
      · exact .inr ⟨a, aBound, differ, aLost, haveP, haveQ, .inr rfl⟩
  | a :: b :: c :: rest =>
      rw [found] at chunks nodup
      obtain ⟨aBound, aLost⟩ := chunks a (by simp)
      obtain ⟨bBound, bLost⟩ := chunks b (by simp)
      obtain ⟨cBound, cLost⟩ := chunks c (by simp)
      simp only [List.nodup_cons, List.mem_cons, not_or] at nodup
      have := noThird _ (row.place_lt a aBound) _ (row.place_lt b bBound) _ (row.place_lt c cBound)
        (fun same => nodup.1.1 (row.injective a aBound b bBound same))
        (fun same => nodup.1.2.1 (row.injective a aBound c cBound same))
        (fun same => nodup.2.1.1 (row.injective b bBound c cBound same)) aLost bLost
      rw [cLost] at this
      cases this

/-- Two lost data chunks with exponents that do not tell them apart. -/
def Collide (layout n stripe : Nat) (present : Nat → Bool) (place : Nat → Nat) (x : Nat) : Prop :=
  ∃ y, y < n - 2 ∧ y ≠ x ∧ present (place y) = false ∧
    (qExponent layout n stripe y - qExponent layout n stripe x) % 255 = 0

/-- The lost chunk when no other data chunk of the row is lost. -/
theorem solveRow_one (only : lostChunks present place (n - 2) = [x])
    (syndromes : present pd = true ∨ present qd = true)
    (parity : ∀ j < len, mk (content pd j) = ∑ i ∈ range (n - 2), mk (content (place i) j))
    (syndrome : ∀ j < len, mk (content qd j) =
      ∑ i ∈ range (n - 2), two ^ qExponent layout n stripe i * mk (content (place i) j)) :
    solveRow layout n stripe x (present pd) (present qd) {
        p := buffer len (remainderP present content place pd (n - 2))
        q := buffer len (remainderQ present content place (qExponent layout n stripe) qd (n - 2))
        missing := lostChunks present place (n - 2) } =
      .ok (buffer len (content (place x))) := by
  unfold solveRow
  simp only [only]
  cases haveP : present pd with
  | true =>
      rw [if_pos rfl]
      apply congrArg Except.ok
      apply buffer_congr
      intro j inside
      apply mk_injective
      rw [mk_remainderP haveP (parity j inside), only]
      simp
  | false =>
      have haveQ : present qd = true := by
        obtain there | there := syndromes
        · rw [haveP] at there
          cases there
        · exact there
      rw [if_neg (by simp), if_pos haveQ, map_buffer]
      apply congrArg Except.ok
      apply buffer_congr
      intro j inside
      apply mk_injective
      rw [mk_gfMul, mk_gfPow2, mk_remainderQ haveQ (syndrome j inside), only]
      simp only [List.toFinset_cons, List.toFinset_nil, insert_empty_eq, sum_singleton]
      rw [zpow_neg, inv_mul_cancel_left₀ (zpow_ne_zero _ two_ne_zero')]

/-- Two lost data chunks, in either order, are told apart by their exponents or
refused. -/
theorem solveRow_two {y : Nat} (distinct : y ≠ x)
    (both : lostChunks present place (n - 2) = [x, y] ∨ lostChunks present place (n - 2) = [y, x])
    (haveP : present pd = true) (haveQ : present qd = true)
    (parity : ∀ j < len, mk (content pd j) = ∑ i ∈ range (n - 2), mk (content (place i) j))
    (syndrome : ∀ j < len, mk (content qd j) =
      ∑ i ∈ range (n - 2), two ^ qExponent layout n stripe i * mk (content (place i) j))
    {result : Except BlockError (List UInt8)}
    (solved : result = solveRow layout n stripe x (present pd) (present qd) {
        p := buffer len (remainderP present content place pd (n - 2))
        q := buffer len (remainderQ present content place (qExponent layout n stripe) qd (n - 2))
        missing := lostChunks present place (n - 2) }) :
    ((qExponent layout n stripe y - qExponent layout n stripe x) % 255 = 0 →
        ∃ error, result = .error error) ∧
      ((qExponent layout n stripe y - qExponent layout n stripe x) % 255 ≠ 0 →
        result = .ok (buffer len (content (place x)))) := by
  have lostSet : (lostChunks present place (n - 2)).toFinset = {x, y} := by
    obtain order | order := both
    · rw [order]
      simp
    · rw [order, List.toFinset_cons, List.toFinset_cons, List.toFinset_nil, insert_empty_eq]
      exact pair_comm y x
  have second : ∃ lost, result =
      if gfPow2 (qExponent layout n stripe y - qExponent layout n stripe x) ^^^ 1 = 0 then
        .error lost
      else
        let gyx := gfPow2 (qExponent layout n stripe y - qExponent layout n stripe x)
        .ok (buffer len fun j =>
          gfMul (gfMul gyx (gfInv (gyx ^^^ 1)))
              (remainderP present content place pd (n - 2) j) ^^^
            gfMul (gfMul (gfPow2 (-qExponent layout n stripe x)) (gfInv (gyx ^^^ 1)))
              (remainderQ present content place (qExponent layout n stripe) qd (n - 2) j)) := by
    rw [solved]
    unfold solveRow
    obtain order | order := both
    · simp only [order, haveP, haveQ, and_self, if_true, map_buffer, xorInto_buffer]
      exact ⟨_, rfl⟩
    · simp only [order, haveP, haveQ, and_self, if_true, if_neg distinct, map_buffer,
        xorInto_buffer]
      exact ⟨_, rfl⟩
  obtain ⟨lost, rfl⟩ := second
  have told : gfPow2 (qExponent layout n stripe y - qExponent layout n stripe x) ^^^ 1 = 0 ↔
      (qExponent layout n stripe y - qExponent layout n stripe x) % 255 = 0 := by
    rw [UInt8.xor_eq_zero_iff, gfPow2_eq_one]
  constructor
  · intro congruent
    rw [if_pos (told.mpr congruent)]
    exact ⟨lost, rfl⟩
  · intro apart
    have nonzero := fun same => apart (told.mp same)
    rw [if_neg nonzero]
    dsimp only
    apply congrArg Except.ok
    apply buffer_congr
    intro j inside
    apply mk_injective
    -- in the field this is the solution of the two equations for the first chunk
    rw [mk_xor, mk_gfMul, mk_gfMul, mk_gfMul, mk_gfMul, mk_gfInv nonzero, mk_xor, mk_one,
      mk_gfPow2, mk_gfPow2, mk_remainderP haveP (parity j inside),
      mk_remainderQ haveQ (syndrome j inside), lostSet, sum_pair distinct.symm,
      sum_pair distinct.symm]
    have ratio : two ^ qExponent layout n stripe y =
        two ^ (qExponent layout n stripe y - qExponent layout n stripe x) *
          two ^ qExponent layout n stripe x := by
      rw [← zpow_add₀ two_ne_zero', sub_add_cancel]
    have independent :
        two ^ (qExponent layout n stripe y - qExponent layout n stripe x) + 1 ≠ 0 := by
      rw [← mk_gfPow2, ← mk_one, ← mk_xor, Ne, mk_eq_zero]
      exact nonzero
    rw [ratio, zpow_neg]
    exact recover_two (zpow_ne_zero _ two_ne_zero') independent

/-- A RAID6 row read at one offset, with at most two members missing, whose P
and Q are the sum and the weighted sum of its data. -/
structure Raid6Row (member : ReadMember) (layout n stripe off len : Nat)
    (present : Nat → Bool) (content : Nat → Nat → UInt8) : Prop where
  known : raid6LayoutKnown layout = true
  several : 2 < n
  reads : RowReads member n off len present content
  few : ({slot ∈ range n | present slot = false} : Finset Nat).card ≤ 2
  parity : ∀ j < len, mk (content (raid6Map layout n stripe 0).2.1 j) =
    ∑ i ∈ range (n - 2), mk (content (raid6Map layout n stripe i).1 j)
  syndrome : ∀ j < len, mk (content (raid6Map layout n stripe 0).2.2 j) =
    ∑ i ∈ range (n - 2),
      two ^ qExponent layout n stripe i * mk (content (raid6Map layout n stripe i).1 j)

/-- A lost data chunk is rebuilt, or refused when another lost one cannot be
told from it. -/
theorem Raid6Row.rebuild {s : Striping} (members : s.members = n) (same : s.layout = layout)
    (row : Raid6Row member layout n stripe off len present content) (chosen : x < n - 2)
    (lost : present (raid6Map layout n stripe x).1 = false) :
    (Collide layout n stripe present (fun i => (raid6Map layout n stripe i).1) x →
        ∃ error, rebuildRaid6 s member stripe x off len = .error error) ∧
      (¬ Collide layout n stripe present (fun i => (raid6Map layout n stripe i).1) x →
        rebuildRaid6 s member stripe x off len =
          .ok (buffer len (content (raid6Map layout n stripe x).1))) := by
  obtain ⟨pd, qd, syndromes, places⟩ := raid6Map_row row.known row.several stripe
  have parity := row.parity
  have syndrome := row.syndrome
  rw [syndromes 0] at parity syndrome
  rw [rebuildRaid6_eq members same row.reads syndromes places fun _ => rfl]
  obtain ⟨only, there⟩ | ⟨y, yBound, distinct, yLost, haveP, haveQ, both⟩ :=
    lostChunks_cases places chosen lost row.few
  · rw [solveRow_one only there parity syndrome]
    constructor
    · rintro ⟨z, zBound, other, zLost, -⟩
      have found : z ∈ lostChunks present (fun i => (raid6Map layout n stripe i).1) (n - 2) :=
        mem_lostChunks.mpr ⟨zBound, zLost⟩
      rw [only, List.mem_singleton] at found
      exact absurd found other
    · intro _
      rfl
  · obtain ⟨refused, solved⟩ := solveRow_two distinct both haveP haveQ parity syndrome rfl
    constructor
    · rintro ⟨z, zBound, other, zLost, congruent⟩
      have found : z ∈ lostChunks present (fun i => (raid6Map layout n stripe i).1) (n - 2) :=
        mem_lostChunks.mpr ⟨zBound, zLost⟩
      have same : z = y := by
        obtain order | order := both
        · rw [order] at found
          simpa [other] using found
        · rw [order] at found
          simpa [other] using found
      rw [same] at congruent
      exact refused congruent
    · intro apart
      exact solved fun congruent => apart ⟨y, yBound, distinct, yLost, congruent⟩

end Raid6

end DiskPartitions
