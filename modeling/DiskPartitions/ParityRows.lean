import DiskPartitions.MdLayouts
import Mathlib.Algebra.BigOperators.Group.Finset.Basic
import Mathlib.Tactic.IntervalCases

/-!
# Every parity row is a permutation of the members

In each layout, the members of a row's data chunks together with those of its
syndromes are all of the members, each once, and the members of the syndromes
are the same for every data chunk of the row.  In RAID6's second syndrome, two
data chunks of a row have different exponents.
-/

namespace DiskPartitions

open Finset

/-- The data chunks `i < data` at `place i`, and the syndromes, on distinct
members out of `n`, with none left over. -/
structure RowOf (n data : Nat) (place : Nat → Nat) (syndromes : List Nat) : Prop where
  place_lt : ∀ i < data, place i < n
  injective : ∀ i < data, ∀ j < data, place i = place j → i = j
  apart : ∀ i < data, place i ∉ syndromes
  syndrome_lt : ∀ slot ∈ syndromes, slot < n
  nodup : syndromes.Nodup
  total : data + syndromes.length = n

namespace RowOf

variable {n data : Nat} {place : Nat → Nat} {syndromes : List Nat}

/-- The members of a row are those of its data and of its syndromes. -/
theorem range_eq (row : RowOf n data place syndromes) :
    range n = (range data).image place ∪ syndromes.toFinset := by
  symm
  apply eq_of_subset_of_card_le
  · intro slot member
    rw [mem_union, mem_image] at member
    rw [mem_range]
    obtain ⟨i, bounded, rfl⟩ | syndrome := member
    · exact row.place_lt i (mem_range.mp bounded)
    · exact row.syndrome_lt slot (List.mem_toFinset.mp syndrome)
  · rw [card_union_of_disjoint, card_image_of_injOn, List.toFinset_card_of_nodup row.nodup,
      card_range, card_range, row.total]
    · intro i first j second same
      exact row.injective i (mem_range.mp first) j (mem_range.mp second) same
    · rw [disjoint_left]
      intro slot member syndrome
      obtain ⟨i, bounded, rfl⟩ := mem_image.mp member
      exact row.apart i (mem_range.mp bounded) (List.mem_toFinset.mp syndrome)

/-- The members of a row, in the order of its data and then of its syndromes, are
those of the array in some order. -/
theorem perm (row : RowOf n data place syndromes) :
    ((List.range data).map place ++ syndromes).Perm (List.range n) := by
  have placed : ((List.range data).map place).Nodup := by
    rw [List.nodup_map_iff_inj_on List.nodup_range]
    intro i first j second same
    exact row.injective i (List.mem_range.mp first) j (List.mem_range.mp second) same
  have nodup : ((List.range data).map place ++ syndromes).Nodup := by
    apply List.Nodup.append placed row.nodup
    intro slot member syndrome
    obtain ⟨i, bounded, rfl⟩ := List.mem_map.mp member
    exact row.apart i (List.mem_range.mp bounded) syndrome
  have inside : (List.range data).map place ++ syndromes ⊆ List.range n := by
    intro slot member
    rw [List.mem_range]
    obtain chunk | syndrome := List.mem_append.mp member
    · obtain ⟨i, bounded, rfl⟩ := List.mem_map.mp chunk
      exact row.place_lt i (List.mem_range.mp bounded)
    · exact row.syndrome_lt slot syndrome
  have enough : (List.range n).length ≤ ((List.range data).map place ++ syndromes).length := by
    rw [List.length_append, List.length_map, List.length_range, List.length_range, row.total]
  exact (List.subperm_of_subset nodup inside).perm_of_length_le enough

/-- A sum over the members is the sum over the data and over the syndromes. -/
theorem sum_range {A : Type*} [AddCommMonoid A] (row : RowOf n data place syndromes)
    (term : Nat → A) :
    ∑ slot ∈ range n, term slot =
      (∑ i ∈ range data, term (place i)) + ∑ slot ∈ syndromes.toFinset, term slot := by
  rw [row.range_eq, sum_union, sum_image]
  · intro i first j second same
    exact row.injective i (mem_range.mp first) j (mem_range.mp second) same
  · rw [disjoint_left]
    intro slot member syndrome
    obtain ⟨i, bounded, rfl⟩ := mem_image.mp member
    exact row.apart i (mem_range.mp bounded) (List.mem_toFinset.mp syndrome)

/-- A row with one member more, which holds one more syndrome. -/
theorem append_last (row : RowOf n data place syndromes) :
    RowOf (n + 1) data place (syndromes ++ [n]) where
  place_lt i bounded := (row.place_lt i bounded).trans (Nat.lt_succ_self n)
  injective := row.injective
  apart i bounded := by
    have below := row.place_lt i bounded
    rw [List.mem_append, List.mem_singleton, not_or]
    exact ⟨row.apart i bounded, by omega⟩
  syndrome_lt slot member := by
    rw [List.mem_append, List.mem_singleton] at member
    obtain earlier | rfl := member
    · exact (row.syndrome_lt slot earlier).trans (Nat.lt_succ_self n)
    · exact Nat.lt_succ_self slot
  nodup := by
    apply List.Nodup.append row.nodup (List.nodup_singleton n)
    intro slot member last
    rw [List.mem_singleton] at last
    exact absurd (row.syndrome_lt slot member) (by omega)
  total := by
    have := row.total
    simp only [List.length_append, List.length_singleton]
    omega

end RowOf

/-! ## The shapes rows have -/

/-- A position at most once around. -/
theorem mod_of_lt_double {x n : Nat} (bounded : x < 2 * n) :
    x % n = if x < n then x else x - n := by
  split
  next below => exact Nat.mod_eq_of_lt below
  next past =>
    rw [Nat.mod_eq_sub_mod (by omega), Nat.mod_eq_of_lt (by omega)]

/-- The conditions of a row with one syndrome, one by one. -/
theorem rowOf_single {n data pd : Nat} {place : Nat → Nat} (below : ∀ i < data, place i < n)
    (injective : ∀ i < data, ∀ j < data, place i = place j → i = j)
    (apart : ∀ i < data, place i ≠ pd) (bounded : pd < n) (total : data + 1 = n) :
    RowOf n data place [pd] where
  place_lt := below
  injective := injective
  apart i inside := by
    rw [List.mem_singleton]
    exact apart i inside
  syndrome_lt slot member := by
    rw [List.mem_singleton.mp member]
    exact bounded
  nodup := List.nodup_singleton pd
  total := total

/-- Data in member order around one parity member. -/
theorem rowOf_around {n pd : Nat} (bounded : pd < n) :
    RowOf n (n - 1) (fun i => if pd ≤ i then i + 1 else i) [pd] := by
  apply rowOf_single
  · intro i below
    split <;> omega
  · intro i first j second same
    split at same <;> split at same <;> omega
  · intro i below
    split <;> omega
  · exact bounded
  · omega

/-- Data from the member after parity on, wrapping. -/
theorem rowOf_after {n pd : Nat} (bounded : pd < n) :
    RowOf n (n - 1) (fun i => (pd + 1 + i) % n) [pd] := by
  apply rowOf_single
  · intro i below
    exact Nat.mod_lt _ (by omega)
  · intro i first j second same
    rw [mod_of_lt_double (by omega), mod_of_lt_double (by omega)] at same
    split at same <;> split at same <;> omega
  · intro i below
    rw [mod_of_lt_double (by omega)]
    split <;> omega
  · exact bounded
  · omega

/-- Data after a parity on the first member. -/
theorem rowOf_first {n : Nat} (several : 1 < n) : RowOf n (n - 1) (fun i => i + 1) [0] := by
  apply rowOf_single
  · intro i below
    omega
  · intro i first j second same
    omega
  · intro i below
    omega
  · omega
  · omega

/-- Data before a parity on the last member. -/
theorem rowOf_last {n : Nat} (several : 1 < n) : RowOf n (n - 1) (fun i => i) [n - 1] := by
  apply rowOf_single
  · intro i below
    omega
  · intro i first j second same
    exact same
  · intro i below
    omega
  · omega
  · omega

/-- The conditions of a row with two syndromes, one by one. -/
theorem rowOf_pair {n data pd qd : Nat} {place : Nat → Nat}
    (below : ∀ i < data, place i < n)
    (injective : ∀ i < data, ∀ j < data, place i = place j → i = j)
    (apart : ∀ i < data, place i ≠ pd ∧ place i ≠ qd) (first : pd < n) (second : qd < n)
    (distinct : pd ≠ qd) (total : data + 2 = n) : RowOf n data place [pd, qd] where
  place_lt := below
  injective := injective
  apart i bounded := by
    simp only [List.mem_cons, List.not_mem_nil, or_false, not_or]
    exact apart i bounded
  syndrome_lt slot member := by
    simp only [List.mem_cons, List.not_mem_nil, or_false] at member
    obtain rfl | rfl := member
    · exact first
    · exact second
  nodup := by simpa using distinct
  total := total

/-- Data in member order around P and the Q that follows it. -/
theorem rowOf_asymmetric {n pd : Nat} (several : 2 < n) (bounded : pd < n) :
    RowOf n (n - 2) (fun i => (raid6Asymmetric n i pd).1)
      [pd, if pd = n - 1 then 0 else pd + 1] := by
  apply rowOf_pair
  · intro i below
    unfold raid6Asymmetric
    split
    · dsimp only
      omega
    · split <;> dsimp only <;> omega
  · intro i first j second same
    unfold raid6Asymmetric at same
    split at same
    · dsimp only at same
      omega
    · split at same <;> split at same <;> dsimp only at same <;> omega
  · intro i below
    unfold raid6Asymmetric
    split
    · dsimp only
      omega
    · split <;> dsimp only <;> omega
  · exact bounded
  · split <;> omega
  · split <;> omega
  · omega

/-- Data from the second member after P on, wrapping, with Q right after P. -/
theorem rowOf_symmetric {n pd : Nat} (several : 2 < n) (bounded : pd < n) :
    RowOf n (n - 2) (fun i => (pd + 2 + i) % n) [pd, (pd + 1) % n] := by
  have next := mod_of_lt_double (x := pd + 1) (n := n) (by omega)
  apply rowOf_pair
  · intro i below
    exact Nat.mod_lt _ (by omega)
  · intro i first j second same
    rw [mod_of_lt_double (by omega), mod_of_lt_double (by omega)] at same
    split at same <;> split at same <;> omega
  · intro i below
    rw [mod_of_lt_double (by omega : pd + 2 + i < 2 * n), next]
    split <;> split <;> omega
  · exact bounded
  · exact Nat.mod_lt _ (by omega)
  · rw [next]
    split <;> omega
  · omega

/-- Data from the member after P on, wrapping, with Q right before P. -/
theorem rowOf_continue {n pd : Nat} (several : 2 < n) (bounded : pd < n) :
    RowOf n (n - 2) (fun i => (pd + 1 + i) % n) [pd, (pd + n - 1) % n] := by
  have previous := mod_of_lt_double (x := pd + n - 1) (n := n) (by omega)
  apply rowOf_pair
  · intro i below
    exact Nat.mod_lt _ (by omega)
  · intro i first j second same
    rw [mod_of_lt_double (by omega), mod_of_lt_double (by omega)] at same
    split at same <;> split at same <;> omega
  · intro i below
    rw [mod_of_lt_double (by omega : pd + 1 + i < 2 * n), previous]
    split <;> split <;> omega
  · exact bounded
  · exact Nat.mod_lt _ (by omega)
  · rw [previous]
    split <;> omega
  · omega

/-! ## The rows of each level -/

theorem raid6Asymmetric_snd (n i pd : Nat) :
    (raid6Asymmetric n i pd).2 = (pd, if pd = n - 1 then 0 else pd + 1) := by
  unfold raid6Asymmetric
  split
  · rfl
  · split <;> rfl

theorem layout_of_known {layout : Nat} (known : raid6LayoutKnown layout = true) :
    layout ≤ 5 ∨ (8 ≤ layout ∧ layout ≤ 10) ∨ (16 ≤ layout ∧ layout ≤ 20) := by
  simp only [raid6LayoutKnown, Bool.or_eq_true, Bool.and_eq_true, decide_eq_true_eq,
    or_assoc] at known
  exact known

/-- A row of a RAID6 array: P and Q do not depend on the data chunk, and the row
is a permutation of the members. -/
theorem raid6Map_row {layout n : Nat} (known : raid6LayoutKnown layout = true) (several : 2 < n)
    (stripe : Nat) :
    ∃ pd qd, (∀ i, (raid6Map layout n stripe i).2 = (pd, qd)) ∧
      RowOf n (n - 2) (fun i => (raid6Map layout n stripe i).1) [pd, qd] := by
  have rotated : stripe % n < n := Nat.mod_lt _ (by omega)
  have shifted : (stripe + 1) % 2 ^ 64 % n < n := Nat.mod_lt _ (by omega)
  have shorter : stripe % (n - 1) < n - 1 := Nat.mod_lt _ (by omega)
  have mirrored : n - 2 - stripe % (n - 1) < n - 1 := by omega
  have last : n - 1 + 1 = n := by omega
  have fewer : n - 1 - 1 = n - 2 := by omega
  -- a RAID5 row over all but the last member, with Q on the last
  have extended : ∀ {place : Nat → Nat} {pd : Nat}, RowOf (n - 1) (n - 1 - 1) place [pd] →
      RowOf n (n - 2) place [pd, n - 1] := by
    intro place pd row
    have longer := row.append_last
    rwa [last, fewer] at longer
  obtain low | middle | high := layout_of_known known
  · interval_cases layout
    · exact ⟨_, _, fun i => raid6Asymmetric_snd n i _, rowOf_asymmetric several (by omega)⟩
    · exact ⟨_, _, fun i => raid6Asymmetric_snd n i _, rowOf_asymmetric several rotated⟩
    · exact ⟨_, _, fun i => rfl, rowOf_symmetric several (by omega)⟩
    · exact ⟨_, _, fun i => rfl, rowOf_symmetric several rotated⟩
    · refine ⟨_, _, fun i => rfl, rowOf_pair ?_ ?_ ?_ ?_ ?_ ?_ ?_⟩
      · intro i below
        change i + 2 < n
        omega
      · intro i first j second same
        change i + 2 = j + 2 at same
        omega
      · intro i below
        change i + 2 ≠ 0 ∧ i + 2 ≠ 1
        omega
      all_goals omega
    · refine ⟨_, _, fun i => rfl, rowOf_pair ?_ ?_ ?_ ?_ ?_ ?_ ?_⟩
      · intro i below
        change i < n
        omega
      · intro i first j second same
        exact same
      · intro i below
        change i ≠ n - 2 ∧ i ≠ n - 2 + 1
        omega
      all_goals omega
  · obtain ⟨from8, upTo10⟩ := middle
    interval_cases layout
    · exact ⟨_, _, fun i => raid6Asymmetric_snd n i _, rowOf_asymmetric several rotated⟩
    · exact ⟨_, _, fun i => raid6Asymmetric_snd n i _, rowOf_asymmetric several (by omega)⟩
    · exact ⟨_, _, fun i => rfl, rowOf_continue several (by omega)⟩
  · obtain ⟨from16, upTo20⟩ := high
    interval_cases layout
    · exact ⟨_, _, fun i => rfl, extended (rowOf_around mirrored)⟩
    · exact ⟨_, _, fun i => rfl, extended (rowOf_around shorter)⟩
    · exact ⟨_, _, fun i => rfl, extended (rowOf_after mirrored)⟩
    · exact ⟨_, _, fun i => rfl, extended (rowOf_after shorter)⟩
    · exact ⟨_, _, fun i => rfl, extended (rowOf_first (by omega))⟩

/-- A row of a RAID4 or RAID5 array. -/
theorem parityMap_row {level : Int} {n : Nat} (single : level ≠ levelRaid6) (several : 1 < n)
    (layout stripe : Nat) :
    ∃ pd, (∀ i, (parityMap level layout n stripe i).2 = (pd, none)) ∧
      RowOf n (n - 1) (fun i => (parityMap level layout n stripe i).1) [pd] := by
  have rotated : stripe % n < n := Nat.mod_lt _ (by omega)
  unfold parityMap
  simp only [if_neg single]
  split
  · exact ⟨_, fun i => rfl, rowOf_around (by omega)⟩
  split
  · exact ⟨_, fun i => rfl, rowOf_around rotated⟩
  split
  · exact ⟨_, fun i => rfl, rowOf_after (by omega)⟩
  split
  · exact ⟨_, fun i => rfl, rowOf_after rotated⟩
  split
  · exact ⟨_, fun i => rfl, rowOf_first several⟩
  · exact ⟨_, fun i => rfl, rowOf_last several⟩

/-- In every layout, the members of a row's data chunks and of its syndromes are the
members of the array, each once, and the syndromes are on the same members for every
data chunk of the row. -/
theorem parity_rows_permute {n : Nat} (several : 2 ≤ n) (stripe : Nat) :
    (∀ level ≠ levelRaid6, ∀ layout, ∃ pd,
      (∀ i, (parityMap level layout n stripe i).2 = (pd, none)) ∧
        ((List.range (n - 1)).map (fun i => (parityMap level layout n stripe i).1) ++
          [pd]).Perm (List.range n)) ∧
      ∀ layout, 3 ≤ n → raid6LayoutKnown layout = true → ∃ pd qd,
        (∀ i, (parityMap levelRaid6 layout n stripe i).2 = (pd, some qd)) ∧
          ((List.range (n - 2)).map (fun i => (parityMap levelRaid6 layout n stripe i).1) ++
            [pd, qd]).Perm (List.range n) := by
  constructor
  · intro level single layout
    obtain ⟨pd, syndromes, row⟩ := parityMap_row single several layout stripe
    exact ⟨pd, syndromes, row.perm⟩
  · intro layout more known
    obtain ⟨pd, qd, syndromes, row⟩ := raid6Map_row known more stripe
    refine ⟨pd, qd, fun i => ?_, row.perm⟩
    change ((raid6Map layout n stripe i).2.1, some (raid6Map layout n stripe i).2.2) = _
    rw [syndromes]

/-- Both halves, of a row of four members whose P wraps around. -/
theorem parity_rows_permute_four :
    ((List.range 3).map (fun i => (parityMap levelRaid5 layoutLeftSymmetric 4 2 i).1) ++ [1]).Perm
        (List.range 4) ∧
      ((List.range 2).map (fun i => (parityMap levelRaid6 layoutRotatingNContinue 4 3 i).1) ++
        [0, 3]).Perm (List.range 4) := by
  obtain ⟨single, double⟩ := parity_rows_permute (by decide : 2 ≤ 4) 2
  obtain ⟨pd, parity, row⟩ := single levelRaid5 (by decide) layoutLeftSymmetric
  obtain ⟨_, wrapped⟩ := parity_rows_permute (by decide : 2 ≤ 4) 3
  obtain ⟨first, second, syndromes, longer⟩ :=
    wrapped layoutRotatingNContinue (by decide) (by decide)
  have onOne : pd = 1 := by
    have place := parity 0
    exact (congrArg Prod.fst place).symm
  have onEnds : first = 0 ∧ second = 3 := by
    have places := syndromes 0
    exact ⟨(congrArg Prod.fst places).symm,
      (Option.some.inj (congrArg Prod.snd places)).symm⟩
  obtain ⟨rfl, rfl⟩ := onEnds
  subst onOne
  exact ⟨row, longer⟩

/-! ## Exponents -/

/-- The data members among the first `t` from `d0` on. -/
def dataBefore (n pd qd d0 : Nat) : Nat → Nat
  | 0 => 0
  | t + 1 =>
      dataBefore n pd qd d0 t + if (d0 + t) % n ≠ pd ∧ (d0 + t) % n ≠ qd then 1 else 0

theorem dataBefore_le (n pd qd d0 t : Nat) : dataBefore n pd qd d0 t ≤ t := by
  induction t with
  | zero => exact Nat.le_refl 0
  | succ t ih =>
      rw [dataBefore]
      split <;> omega

theorem dataBefore_mono {n pd qd d0 s t : Nat} (ordered : s ≤ t) :
    dataBefore n pd qd d0 s ≤ dataBefore n pd qd d0 t := by
  induction ordered with
  | refl => exact Nat.le_refl _
  | step _ ih => exact ih.trans (Nat.le_add_right _ _)

/-- A data member further on has more data members before it. -/
theorem dataBefore_lt {n pd qd d0 s t : Nat} (ordered : s < t)
    (holds : (d0 + s) % n ≠ pd ∧ (d0 + s) % n ≠ qd) :
    dataBefore n pd qd d0 s < dataBefore n pd qd d0 t := by
  have next : dataBefore n pd qd d0 (s + 1) = dataBefore n pd qd d0 s + 1 := by
    rw [dataBefore, if_pos holds]
  have onward : s + 1 ≤ t := ordered
  calc dataBefore n pd qd d0 s < dataBefore n pd qd d0 (s + 1) := by omega
    _ ≤ dataBefore n pd qd d0 t := dataBefore_mono onward

/-- Within one round no member is met twice. -/
theorem places_apart {n d0 s t : Nat} (start : d0 < n) (ordered : s < t) (once : t < n) :
    (d0 + s) % n ≠ (d0 + t) % n := by
  rw [mod_of_lt_double (by omega), mod_of_lt_double (by omega)]
  split <;> split <;> omega

theorem place_onward (n d0 s : Nat) : ((d0 + s) % n + 1) % n = (d0 + (s + 1)) % n := by
  rw [Nat.mod_add_mod, Nat.add_assoc]

/-- Walking from `s` to `t` members on counts the data members in between. -/
theorem countData_eq {n pd qd d0 t : Nat} (start : d0 < n) (once : t < n) :
    ∀ {fuel s slot : Nat}, s ≤ t → t < s + fuel →
      countData n pd qd ((d0 + t) % n) fuel ((d0 + s) % n) slot +
          dataBefore n pd qd d0 s = slot + dataBefore n pd qd d0 t := by
  intro fuel
  induction fuel with
  | zero =>
      intro s slot before enough
      omega
  | succ fuel ih =>
      intro s slot before enough
      rw [countData]
      by_cases arrived : s = t
      · rw [arrived, if_pos rfl]
      · have apart := places_apart start (by omega : s < t) once
        rw [if_neg apart, place_onward]
        by_cases holds : (d0 + s) % n ≠ pd ∧ (d0 + s) % n ≠ qd
        · have rest := @ih (s + 1) (slot + 1) (by omega) (by omega)
          rw [dataBefore, if_pos holds] at rest
          rw [if_pos holds]
          omega
        · have rest := @ih (s + 1) slot (by omega) (by omega)
          rw [dataBefore, if_neg holds] at rest
          rw [if_neg holds]
          omega

/-- Every member is reached from any other in less than one round. -/
theorem exists_steps {n d0 dd : Nat} (start : d0 < n) (member : dd < n) :
    ∃ t < n, (d0 + t) % n = dd := by
  by_cases before : d0 ≤ dd
  · refine ⟨dd - d0, by omega, ?_⟩
    rw [mod_of_lt_double (by omega)]
    split <;> omega
  · refine ⟨dd + n - d0, by omega, ?_⟩
    rw [mod_of_lt_double (by omega)]
    split <;> omega

/-- The walk of `qExponent` arrives, and what it counted. -/
theorem exists_dataBefore {n pd qd d0 dd : Nat} (start : d0 < n) (member : dd < n) :
    ∃ t < n, (d0 + t) % n = dd ∧ countData n pd qd dd n d0 0 = dataBefore n pd qd d0 t := by
  obtain ⟨t, once, arrives⟩ := exists_steps start member
  refine ⟨t, once, arrives, ?_⟩
  have walked : countData n pd qd ((d0 + t) % n) n ((d0 + 0) % n) 0 + dataBefore n pd qd d0 0 =
      0 + dataBefore n pd qd d0 t :=
    countData_eq start once (Nat.zero_le t) (by omega)
  rw [Nat.add_zero, Nat.mod_eq_of_lt start, arrives] at walked
  simpa [dataBefore] using walked

/-- The exponents of a row's data chunks are below the member count, and no two
are the same. -/
theorem qExponent_spec {layout n : Nat} (known : raid6LayoutKnown layout = true)
    (several : 2 < n) (stripe : Nat) :
    (∀ i < n - 2, 0 ≤ qExponent layout n stripe i ∧ qExponent layout n stripe i < n) ∧
      ∀ i < n - 2, ∀ j < n - 2, qExponent layout n stripe i = qExponent layout n stripe j →
        i = j := by
  obtain ⟨pd, qd, syndromes, row⟩ := raid6Map_row known several stripe
  have second : qd < n := row.syndrome_lt qd (by simp)
  have unfolded : ∀ i, qExponent layout n stripe i =
      if layoutRotatingZeroRestart ≤ layout ∧ layout ≤ layoutRotatingNContinue then
        ((raid6Map layout n stripe i).1 : Int)
      else countData n pd qd (raid6Map layout n stripe i).1 n
        (if qd = n - 1 then 0 else qd + 1) 0 := by
    intro i
    have parts := syndromes i
    unfold qExponent
    rw [← Prod.mk.eta (p := raid6Map layout n stripe i), parts]
  by_cases ddf : layoutRotatingZeroRestart ≤ layout ∧ layout ≤ layoutRotatingNContinue
  · simp only [unfolded, if_pos ddf]
    constructor
    · intro i bounded
      have := row.place_lt i bounded
      omega
    · intro i first j second same
      exact row.injective i first j second (by exact_mod_cast same)
  · simp only [unfolded, if_neg ddf]
    have start : (if qd = n - 1 then 0 else qd + 1) < n := by split <;> omega
    generalize (if qd = n - 1 then 0 else qd + 1) = d0 at start
    have arrives : ∀ i < n - 2, ∃ t < n, (d0 + t) % n = (raid6Map layout n stripe i).1 ∧
        countData n pd qd (raid6Map layout n stripe i).1 n d0 0 = dataBefore n pd qd d0 t :=
      fun i bounded => exists_dataBefore start (row.place_lt i bounded)
    constructor
    · intro i bounded
      obtain ⟨t, once, -, counted⟩ := arrives i bounded
      have := dataBefore_le n pd qd d0 t
      rw [counted]
      omega
    · intro i first j second same
      obtain ⟨s, -, arrivesFirst, countedFirst⟩ := arrives i first
      obtain ⟨t, -, arrivesSecond, countedSecond⟩ := arrives j second
      have holds : ∀ k < n - 2, (raid6Map layout n stripe k).1 ≠ pd ∧
          (raid6Map layout n stripe k).1 ≠ qd := by
        intro k bounded
        simpa using row.apart k bounded
      rw [countedFirst, countedSecond] at same
      obtain earlier | together | later := Nat.lt_trichotomy s t
      · have := dataBefore_lt earlier (by rw [arrivesFirst]; exact holds i first)
        omega
      · apply row.injective i first j second
        rw [← arrivesFirst, ← arrivesSecond, together]
      · have := dataBefore_lt later (by rw [arrivesSecond]; exact holds j second)
        omega

/-- Two data chunks of a row have exponents that agree modulo 255 only in an
array of more than 255 members. -/
theorem members_of_congruent {layout n stripe i j : Nat} (known : raid6LayoutKnown layout = true)
    (several : 2 < n) (first : i < n - 2) (second : j < n - 2) (distinct : i ≠ j)
    (congruent : (qExponent layout n stripe j - qExponent layout n stripe i) % 255 = 0) :
    255 < n := by
  obtain ⟨bounded, injective⟩ := qExponent_spec known several stripe
  have low := bounded i first
  have high := bounded j second
  have apart : qExponent layout n stripe i ≠ qExponent layout n stripe j :=
    fun same => distinct (injective i first j second same)
  omega

end DiskPartitions
