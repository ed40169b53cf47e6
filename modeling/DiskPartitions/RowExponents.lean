import DiskPartitions.RowRebuild
import Mathlib.Data.Nat.Count

/-!
# The exponents of a row

The walk that numbers a row's data chunks for Q comes to the chunk's member from
wherever it starts, and the numbers it gives are those below the number of data chunks,
each once.  Up to 255 members, two lost chunks of a row are then always told apart, and
their solution never divides by zero.
-/

namespace DiskPartitions

open Refusals GaloisByte

/-- The loop of `q_exponent`, with no bound on its rounds: from member `m`, with `slot`
data members counted, it ends with `result`. -/
inductive MemberWalk (n pd qd dd : Nat) : Nat → Nat → Nat → Prop
  | arrived (slot : Nat) : MemberWalk n pd qd dd dd slot slot
  | onward {m slot result : Nat} (away : m ≠ dd)
      (rest : MemberWalk n pd qd dd ((m + 1) % n)
        (if m ≠ pd ∧ m ≠ qd then slot + 1 else slot) result) :
      MemberWalk n pd qd dd m slot result

/-- With rounds enough to get from `s` to `t` members on, the bounded walk is the loop. -/
theorem memberWalk_countData {n pd qd d0 t : Nat} (start : d0 < n) (once : t < n) :
    ∀ {fuel s slot : Nat}, s ≤ t → t < s + fuel →
      MemberWalk n pd qd ((d0 + t) % n) ((d0 + s) % n) slot
        (countData n pd qd ((d0 + t) % n) fuel ((d0 + s) % n) slot) := by
  intro fuel
  induction fuel with
  | zero =>
      intro s slot before enough
      omega
  | succ fuel ih =>
      intro s slot before enough
      rw [countData]
      by_cases arrived : s = t
      · rw [arrived, if_pos rfl]
        exact .arrived slot
      · have apart := places_apart start (by omega : s < t) once
        rw [if_neg apart]
        apply MemberWalk.onward apart
        rw [place_onward]
        exact ih (by omega) (by omega)

/-- The walk ends at every member, within one round of the members. -/
theorem memberWalk_ends {n pd qd d0 dd : Nat} (start : d0 < n) (member : dd < n) :
    MemberWalk n pd qd dd d0 0 (countData n pd qd dd n d0 0) := by
  obtain ⟨t, once, arrives⟩ := exists_steps start member
  have walked : MemberWalk n pd qd ((d0 + t) % n) ((d0 + 0) % n) 0
      (countData n pd qd ((d0 + t) % n) n ((d0 + 0) % n) 0) :=
    memberWalk_countData start once (Nat.zero_le t) (by omega)
  rwa [Nat.add_zero, Nat.mod_eq_of_lt start, arrives] at walked

/-! ## The data members of one round -/

theorem dataBefore_eq_count (n pd qd d0 t : Nat) :
    dataBefore n pd qd d0 t =
      Nat.count (fun s => (d0 + s) % n ≠ pd ∧ (d0 + s) % n ≠ qd) t := by
  induction t with
  | zero => rfl
  | succ t ih => rw [dataBefore, ih, Nat.count_succ]

/-- One round, from wherever it starts, passes every data member. -/
theorem dataBefore_round {n pd qd : Nat} (first : pd < n) (second : qd < n)
    (distinct : pd ≠ qd) (d0 : Nat) : dataBefore n pd qd d0 n = n - 2 := by
  -- starting at `d0` instead of at 0 only turns the round
  have turned : Nat.count (fun m => m % n ≠ pd ∧ m % n ≠ qd) n + Nat.count
      (fun m => m % n ≠ pd ∧ m % n ≠ qd) d0 =
      Nat.count (fun m => m % n ≠ pd ∧ m % n ≠ qd) d0 + dataBefore n pd qd d0 n := by
    rw [dataBefore_eq_count, ← Nat.count_add, Nat.add_comm d0, Nat.count_add]
    simp only [Nat.add_mod_left]
  have data : (Finset.range n).filter (fun m => m % n ≠ pd ∧ m % n ≠ qd) =
      ((Finset.range n).erase pd).erase qd := by
    ext m
    simp only [Finset.mem_filter, Finset.mem_range, Finset.mem_erase]
    constructor
    · rintro ⟨below, notP, notQ⟩
      rw [Nat.mod_eq_of_lt below] at notP notQ
      exact ⟨notQ, notP, below⟩
    · rintro ⟨notQ, notP, below⟩
      rw [Nat.mod_eq_of_lt below]
      exact ⟨below, notP, notQ⟩
  have counted : Nat.count (fun m => m % n ≠ pd ∧ m % n ≠ qd) n = n - 2 := by
    rw [Nat.count_eq_card_filter_range, data, Finset.card_erase_of_mem, Finset.card_erase_of_mem,
      Finset.card_range]
    · omega
    · exact Finset.mem_range.mpr first
    · rw [Finset.mem_erase, Finset.mem_range]
      exact ⟨distinct.symm, second⟩
  omega

/-! ## The exponents -/

section Exponents

variable {layout n stripe : Nat}

theorem qExponent_ddf
    (ddf : layoutRotatingZeroRestart ≤ layout ∧ layout ≤ layoutRotatingNContinue) (i : Nat) :
    qExponent layout n stripe i = (raid6Map layout n stripe i).1 := by
  unfold qExponent
  exact if_pos ddf

/-- Outside the DDF layouts an exponent is what the walk from the member after Q counts. -/
theorem qExponent_walked
    (walked : ¬ (layoutRotatingZeroRestart ≤ layout ∧ layout ≤ layoutRotatingNContinue))
    {pd qd i : Nat} (syndromes : (raid6Map layout n stripe i).2 = (pd, qd)) :
    qExponent layout n stripe i =
      countData n pd qd (raid6Map layout n stripe i).1 n (if qd = n - 1 then 0 else qd + 1) 0 := by
  unfold qExponent
  rw [← Prod.mk.eta (p := raid6Map layout n stripe i), syndromes]
  exact if_neg walked

/-- An exponent that was counted is below the number of data chunks. -/
theorem qExponent_lt_data (known : raid6LayoutKnown layout = true) (several : 2 < n)
    (walked : ¬ (layoutRotatingZeroRestart ≤ layout ∧ layout ≤ layoutRotatingNContinue))
    {i : Nat} (bounded : i < n - 2) :
    ∃ k < n - 2, qExponent layout n stripe i = k := by
  obtain ⟨pd, qd, syndromes, row⟩ := raid6Map_row known several stripe
  have first : pd < n := row.syndrome_lt pd (by simp)
  have second : qd < n := row.syndrome_lt qd (by simp)
  have distinct : pd ≠ qd := by simpa using row.nodup
  have holds : (raid6Map layout n stripe i).1 ≠ pd ∧ (raid6Map layout n stripe i).1 ≠ qd := by
    simpa using row.apart i bounded
  have start : (if qd = n - 1 then 0 else qd + 1) < n := by split <;> omega
  obtain ⟨t, once, arrives, counted⟩ :=
    @exists_dataBefore n pd qd _ _ start (row.place_lt i bounded)
  refine ⟨_, ?_, qExponent_walked walked (syndromes i)⟩
  -- the chunk's own member is still to come in the round
  rw [counted, ← dataBefore_round first second distinct]
  exact dataBefore_lt once (by rw [arrives]; exact holds)

/-- The exponents that were counted are the numbers below the number of data chunks. -/
theorem qExponents_perm (known : raid6LayoutKnown layout = true) (several : 2 < n)
    (walked : ¬ (layoutRotatingZeroRestart ≤ layout ∧ layout ≤ layoutRotatingNContinue)) :
    ((List.range (n - 2)).map (qExponent layout n stripe)).Perm
      ((List.range (n - 2)).map Int.ofNat) := by
  obtain ⟨-, injective⟩ := qExponent_spec known several stripe
  have nodup : ((List.range (n - 2)).map (qExponent layout n stripe)).Nodup := by
    rw [List.nodup_map_iff_inj_on List.nodup_range]
    intro i first j second same
    exact injective i (List.mem_range.mp first) j (List.mem_range.mp second) same
  have inside : (List.range (n - 2)).map (qExponent layout n stripe) ⊆
      (List.range (n - 2)).map Int.ofNat := by
    intro exponent member
    obtain ⟨i, bounded, rfl⟩ := List.mem_map.mp member
    obtain ⟨k, small, counted⟩ :=
      @qExponent_lt_data layout n stripe known several walked i (List.mem_range.mp bounded)
    rw [counted]
    exact List.mem_map.mpr ⟨k, List.mem_range.mpr small, rfl⟩
  exact (List.subperm_of_subset nodup inside).perm_of_length_le (by simp)

/-- Up to 255 members, different data chunks of a row have powers of two that differ. -/
theorem gfPow2_apart (known : raid6LayoutKnown layout = true) (several : 2 < n)
    (few : n ≤ 255) {x y : Nat} (chosen : x < n - 2) (other : y < n - 2) (distinct : x ≠ y) :
    gfPow2 (qExponent layout n stripe y - qExponent layout n stripe x) ^^^ 1 ≠ 0 := by
  rw [Ne, UInt8.xor_eq_zero_iff, gfPow2_eq_one]
  intro congruent
  have := members_of_congruent known several chosen other distinct congruent
  omega

/-- The data chunks noted missing are among those looked at, in their order. -/
theorem foldlM_take_missing {member : ReadMember} {off len : Nat} {chunks : List Nat}
    {start row : Syndromes}
    (taken : chunks.foldlM (Syndromes.take member layout n stripe off len) start = .ok row) :
    ∃ lost : List Nat, lost.Sublist chunks ∧ row.missing = start.missing ++ lost := by
  induction chunks generalizing start with
  | nil =>
      cases taken
      exact ⟨[], .slnil, (List.append_nil _).symm⟩
  | cons i chunks ih =>
      obtain ⟨next, one, rest⟩ := bind_eq_ok.mp taken
      obtain ⟨lost, among, collected⟩ := ih rest
      obtain ⟨answer, -, noted⟩ := bind_eq_ok.mp one
      cases answer with
      | none =>
          cases noted
          refine ⟨i :: lost, among.cons_cons i, ?_⟩
          rw [collected, List.append_assoc]
          rfl
      | some d =>
          cases noted
          exact ⟨lost, among.cons i, collected⟩

/-- Up to 255 members, two lost data chunks are solved for whatever the row reads. -/
theorem rebuildRaid6_two {s : Striping} {member : ReadMember} {x off len : Nat}
    {p q : List UInt8} {row : Syndromes} {a b : Nat} (members : s.members = n)
    (same : s.layout = layout) (known : raid6LayoutKnown layout = true) (several : 2 < n)
    (few : n ≤ 255) (chosen : x < n - 2)
    (readP : member (parityMap levelRaid6 layout n stripe 0).2.1 off len = .ok (some p))
    (readQ : member ((parityMap levelRaid6 layout n stripe 0).2.2.getD 0) off len =
      .ok (some q))
    (taken : (List.range (n - 2)).foldlM (Syndromes.take member layout n stripe off len)
      { p, q, missing := [] } = .ok row)
    (two : row.missing = [a, b]) :
    gfPow2 (qExponent layout n stripe (if a = x then b else a) -
        qExponent layout n stripe x) ^^^ 1 ≠ 0 ∧
      ∃ bytes, rebuildRaid6 s member stripe x off len = .ok bytes := by
  obtain ⟨lost, among, collected⟩ := foldlM_take_missing taken
  rw [two, List.nil_append] at collected
  subst collected
  have distinct : a ≠ b := by simpa using among.nodup List.nodup_range
  have bounded : ∀ i ∈ [a, b], i < n - 2 := fun i found => List.mem_range.mp (among.subset found)
  have nonzero : gfPow2 (qExponent layout n stripe (if a = x then b else a) -
      qExponent layout n stripe x) ^^^ 1 ≠ 0 := by
    split
    next first =>
      exact gfPow2_apart known several few chosen (bounded b (by simp)) (first ▸ distinct)
    next second =>
      exact gfPow2_apart known several few chosen (bounded a (by simp)) (Ne.symm second)
  refine ⟨nonzero, ?_⟩
  unfold rebuildRaid6
  simp only [members, same]
  rw [readP, ok_bind, readQ, ok_bind, Option.getD_some, Option.getD_some, taken, ok_bind]
  unfold solveRow
  simp only [two, Option.isSome_some, and_self, if_true, if_neg nonzero]
  exact ⟨_, rfl⟩

/-- The walk ends for every data chunk of a row.  Outside the DDF layouts the exponents of
the row are the numbers below that of its data chunks, each once, and in the DDF layouts
the members.  Up to 255 members, no two agree modulo 255, and two lost data chunks are
solved for without a division by zero. -/
theorem exponents_distinct (several : 3 ≤ n) (known : raid6LayoutKnown layout = true) :
    (∃ pd qd, (∀ i, (raid6Map layout n stripe i).2 = (pd, qd)) ∧
      ∀ i < n - 2, ∃ slot,
        MemberWalk n pd qd (raid6Map layout n stripe i).1 (if qd = n - 1 then 0 else qd + 1) 0
          slot ∧
        (¬ (layoutRotatingZeroRestart ≤ layout ∧ layout ≤ layoutRotatingNContinue) →
          qExponent layout n stripe i = slot)) ∧
      (¬ (layoutRotatingZeroRestart ≤ layout ∧ layout ≤ layoutRotatingNContinue) →
        ((List.range (n - 2)).map (qExponent layout n stripe)).Perm
          ((List.range (n - 2)).map Int.ofNat)) ∧
      (layoutRotatingZeroRestart ≤ layout ∧ layout ≤ layoutRotatingNContinue →
        ∀ i, qExponent layout n stripe i = (raid6Map layout n stripe i).1) ∧
      (n ≤ 255 → ∀ x < n - 2, ∀ y < n - 2, x ≠ y →
        qExponent layout n stripe x % 255 ≠ qExponent layout n stripe y % 255) ∧
      (n ≤ 255 → ∀ (s : Striping) (member : ReadMember) (x off len : Nat) (p q : List UInt8)
        (row : Syndromes) (a b : Nat), s.members = n → s.layout = layout → x < n - 2 →
        member (parityMap levelRaid6 layout n stripe 0).2.1 off len = .ok (some p) →
        member ((parityMap levelRaid6 layout n stripe 0).2.2.getD 0) off len = .ok (some q) →
        (List.range (n - 2)).foldlM (Syndromes.take member layout n stripe off len)
          { p, q, missing := [] } = .ok row →
        row.missing = [a, b] →
        gfPow2 (qExponent layout n stripe (if a = x then b else a) -
            qExponent layout n stripe x) ^^^ 1 ≠ 0 ∧
          ∃ bytes, rebuildRaid6 s member stripe x off len = .ok bytes) := by
  refine ⟨?_, qExponents_perm known several, qExponent_ddf, ?_, ?_⟩
  · obtain ⟨pd, qd, syndromes, row⟩ := raid6Map_row known several stripe
    have second : qd < n := row.syndrome_lt qd (by simp)
    have start : (if qd = n - 1 then 0 else qd + 1) < n := by split <;> omega
    refine ⟨pd, qd, syndromes, fun i bounded => ?_⟩
    exact ⟨_, memberWalk_ends start (row.place_lt i bounded),
      fun walked => qExponent_walked walked (syndromes i)⟩
  · intro few x chosen y other distinct same
    have congruent : (qExponent layout n stripe y - qExponent layout n stripe x) % 255 = 0 :=
      Int.emod_eq_emod_iff_emod_sub_eq_zero.mp same.symm
    have := members_of_congruent known several chosen other distinct congruent
    omega
  · intro few s member x off len p q row a b members sameLayout chosen readP readQ taken two
    exact rebuildRaid6_two members sameLayout known several few chosen readP readQ taken two

end Exponents

/-- A RAID6 array over four members, in chunks of one sector. -/
def fourMembers : Striping where
  level := levelRaid6
  layout := layoutLeftAsymmetric
  members := 4
  chunk := 512
  raid10 := none

/-- The row of which only P, on the last member, and Q, on the first, are left. -/
def syndromesOnly : ReadMember := fun slot _ len =>
  .ok (if slot = 0 ∨ slot = 3 then some (List.replicate len 7) else none)

theorem exponents_distinct_four :
    ((List.range 2).map (qExponent layoutLeftAsymmetric 4 0)).Perm [0, 1] ∧
      ∃ bytes, rebuildRaid6 fourMembers syndromesOnly 0 1 0 1 = .ok bytes := by
  have several : 3 ≤ 4 := by decide
  have known : raid6LayoutKnown layoutLeftAsymmetric = true := by decide
  obtain ⟨-, counted, -, -, solved⟩ := @exponents_distinct layoutLeftAsymmetric 4 0 several known
  refine ⟨counted (by decide), ?_⟩
  exact (solved (by decide) fourMembers syndromesOnly 1 0 1 [7] [7]
    { p := [7], q := [7], missing := [0, 1] } 0 1 rfl rfl (by decide) rfl rfl rfl rfl).2

end DiskPartitions
