import DiskPartitions.PartitionRecords

/-!
# The overlap sweep finds exactly the overlapping entries

The sweep visits the entries by first sector and remembers only the entry that
reaches furthest.  What makes that enough is that an entry met again by a later
one, but not the furthest, already overlapped the furthest when it was passed.
-/

namespace DiskPartitions

/-- Two inclusive spans with a sector in common. -/
def SharesSector (a b : UInt64 × UInt64) : Prop := a.1 ≤ b.2 ∧ b.1 ≤ a.2

instance (a b : UInt64 × UInt64) : Decidable (SharesSector a b) :=
  inferInstanceAs (Decidable (_ ∧ _))

theorem SharesSector.symm {a b : UInt64 × UInt64} (shares : SharesSector a b) :
    SharesSector b a :=
  ⟨shares.2, shares.1⟩

/-- What the sweep knows after visiting the entries `seen`: their flags are
right among themselves, and the remembered entry reaches furthest. -/
structure SweepInvariant (spans : List (UInt64 × UInt64)) (seen : List Nat)
    (state : List Bool × Option (Nat × UInt64)) : Prop where
  length_flags : state.1.length = spans.length
  flag_iff : ∀ i, state.1[i]? = some true ↔
    i ∈ seen ∧ ∃ j ∈ seen, j ≠ i ∧
      SharesSector (spans.getD i (0, 0)) (spans.getD j (0, 0))
  highest_none : state.2 = none → seen = []
  highest_some : ∀ j highest, state.2 = some (j, highest) →
    j ∈ seen ∧ highest = (spans.getD j (0, 0)).2 ∧
      ∀ i ∈ seen, (spans.getD i (0, 0)).2 ≤ highest

theorem sweepInvariant_nil (spans : List (UInt64 × UInt64)) :
    SweepInvariant spans [] (List.replicate spans.length false, none) where
  length_flags := by simp
  flag_iff := by
    intro i
    simp [List.getElem?_replicate]
  highest_none _ := rfl
  highest_some := by simp

section Step

variable {spans : List (UInt64 × UInt64)} {seen : List Nat} {i : Nat}

/-- An entry starting no earlier than the ones seen shares a sector with one of
them exactly when it starts at or before that one's end. -/
theorem sharesSector_of_sorted {j : Nat}
    (ordered : (spans.getD i (0, 0)).1 ≤ (spans.getD i (0, 0)).2)
    (sorted : (spans.getD j (0, 0)).1 ≤ (spans.getD i (0, 0)).1) :
    SharesSector (spans.getD i (0, 0)) (spans.getD j (0, 0)) ↔
      (spans.getD i (0, 0)).1 ≤ (spans.getD j (0, 0)).2 := by
  simp only [SharesSector, UInt64.le_iff_toNat_le] at *
  omega

/-- Two seen entries that both reach a later start share that sector. -/
theorem sharesSector_of_reach {j k : Nat}
    (sortedJ : (spans.getD j (0, 0)).1 ≤ (spans.getD i (0, 0)).1)
    (sortedK : (spans.getD k (0, 0)).1 ≤ (spans.getD i (0, 0)).1)
    (reachJ : (spans.getD i (0, 0)).1 ≤ (spans.getD j (0, 0)).2)
    (reachK : (spans.getD i (0, 0)).1 ≤ (spans.getD k (0, 0)).2) :
    SharesSector (spans.getD j (0, 0)) (spans.getD k (0, 0)) := by
  simp only [SharesSector, UInt64.le_iff_toNat_le] at *
  omega

/-- The flags after entry `i` met the furthest entry `j`. -/
theorem flag_iff_of_overlap {flags : List Bool} {j : Nat}
    (lengthEq : flags.length = spans.length)
    (flagIff : ∀ k, flags[k]? = some true ↔
      k ∈ seen ∧ ∃ l ∈ seen, l ≠ k ∧
        SharesSector (spans.getD k (0, 0)) (spans.getD l (0, 0)))
    (bound : i < spans.length) (boundJ : j < spans.length) (fresh : i ∉ seen)
    (ordered : (spans.getD i (0, 0)).1 ≤ (spans.getD i (0, 0)).2)
    (sorted : ∀ k ∈ seen, (spans.getD k (0, 0)).1 ≤ (spans.getD i (0, 0)).1)
    (member : j ∈ seen) (reach : (spans.getD i (0, 0)).1 ≤ (spans.getD j (0, 0)).2)
    (k : Nat) :
    ((flags.set i true).set j true)[k]? = some true ↔
      k ∈ seen ++ [i] ∧ ∃ l ∈ seen ++ [i], l ≠ k ∧
        SharesSector (spans.getD k (0, 0)) (spans.getD l (0, 0)) := by
  have distinct : j ≠ i := fun same => fresh (same ▸ member)
  have shares : SharesSector (spans.getD i (0, 0)) (spans.getD j (0, 0)) :=
    (sharesSector_of_sorted ordered (sorted j member)).mpr reach
  by_cases atJ : k = j
  · subst atJ
    have flagged : ((flags.set i true).set k true)[k]? = some true := by
      rw [List.getElem?_set_self (by rw [List.length_set]; omega)]
    exact iff_of_true flagged
      ⟨by simp [member], i, by simp, fun same => distinct same.symm, shares.symm⟩
  by_cases atI : k = i
  · subst atI
    have flagged : ((flags.set k true).set j true)[k]? = some true := by
      rw [List.getElem?_set_ne (by omega), List.getElem?_set_self (by omega)]
    exact iff_of_true flagged ⟨by simp, j, by simp [member], distinct, shares⟩
  rw [List.getElem?_set_ne (by omega), List.getElem?_set_ne (by omega), flagIff]
  constructor
  · rintro ⟨seenK, l, seenL, differs, sharesL⟩
    exact ⟨by simp [seenK], l, by simp [seenL], differs, sharesL⟩
  · rintro ⟨inK, l, inL, differs, sharesL⟩
    have seenK : k ∈ seen := by simpa [atI] using inK
    refine ⟨seenK, ?_⟩
    by_cases lastL : l = i
    · -- the new entry reaches back to `k`, which therefore met `j` before
      subst lastL
      have reachK := (sharesSector_of_sorted ordered (sorted k seenK)).mp sharesL.symm
      exact ⟨j, member, fun same => atJ same.symm,
        sharesSector_of_reach (sorted k seenK) (sorted j member) reachK reach⟩
    · exact ⟨l, by simpa [lastL] using inL, differs, sharesL⟩

/-- The flags stay as they are when the new entry starts past every end seen. -/
theorem flag_iff_of_clear {flags : List Bool}
    (flagIff : ∀ k, flags[k]? = some true ↔
      k ∈ seen ∧ ∃ l ∈ seen, l ≠ k ∧
        SharesSector (spans.getD k (0, 0)) (spans.getD l (0, 0)))
    (fresh : i ∉ seen)
    (clear : ∀ k ∈ seen,
      ¬ SharesSector (spans.getD i (0, 0)) (spans.getD k (0, 0)))
    (k : Nat) :
    flags[k]? = some true ↔
      k ∈ seen ++ [i] ∧ ∃ l ∈ seen ++ [i], l ≠ k ∧
        SharesSector (spans.getD k (0, 0)) (spans.getD l (0, 0)) := by
  rw [flagIff]
  constructor
  · rintro ⟨seenK, l, seenL, differs, shares⟩
    exact ⟨by simp [seenK], l, by simp [seenL], differs, shares⟩
  · rintro ⟨inK, l, inL, differs, shares⟩
    rcases List.mem_append.mp inK with seenK | newK
    · rcases List.mem_append.mp inL with seenL | newL
      · exact ⟨seenK, l, seenL, differs, shares⟩
      · rw [List.mem_singleton.mp newL] at shares
        exact (clear k seenK shares.symm).elim
    · rw [List.mem_singleton] at newK
      subst newK
      rcases List.mem_append.mp inL with seenL | newL
      · exact (clear l seenL shares).elim
      · exact (differs (List.mem_singleton.mp newL)).elim

theorem sweepInvariant_step {state : List Bool × Option (Nat × UInt64)}
    (invariant : SweepInvariant spans seen state) (bound : i < spans.length)
    (bounds : ∀ k ∈ seen, k < spans.length) (fresh : i ∉ seen)
    (ordered : (spans.getD i (0, 0)).1 ≤ (spans.getD i (0, 0)).2)
    (sorted : ∀ k ∈ seen, (spans.getD k (0, 0)).1 ≤ (spans.getD i (0, 0)).1) :
    SweepInvariant spans (seen ++ [i]) (sweepStep spans state i) := by
  obtain ⟨lengthEq, flagIff, whenNone, whenSome⟩ := invariant
  rcases state with ⟨flags, none | ⟨j, highest⟩⟩
  · have empty : seen = [] := whenNone rfl
    subst empty
    refine ⟨lengthEq, ?_, by simp [sweepStep], ?_⟩
    · exact flag_iff_of_clear flagIff fresh (by simp)
    · intro k highest found
      simp only [sweepStep, Option.some.injEq, Prod.mk.injEq] at found
      obtain ⟨rfl, rfl⟩ := found
      simp
  · obtain ⟨member, highestEq, furthest⟩ := whenSome j highest rfl
    have nextHighest : ∀ k next, (sweepStep spans (flags, some (j, highest)) i).2 =
        some (k, next) → k ∈ seen ++ [i] ∧ next = (spans.getD k (0, 0)).2 ∧
          ∀ l ∈ seen ++ [i], (spans.getD l (0, 0)).2 ≤ next := by
      intro k next found
      simp only [sweepStep] at found
      split at found
      next kept =>
        simp only [Option.some.injEq, Prod.mk.injEq] at found
        obtain ⟨rfl, rfl⟩ := found
        refine ⟨by simp [member], highestEq, ?_⟩
        intro l inL
        rcases List.mem_append.mp inL with seenL | newL
        · exact furthest l seenL
        · rw [List.mem_singleton.mp newL]
          exact kept
      next raised =>
        simp only [Option.some.injEq, Prod.mk.injEq] at found
        obtain ⟨rfl, rfl⟩ := found
        refine ⟨by simp, rfl, ?_⟩
        intro l inL
        rcases List.mem_append.mp inL with seenL | newL
        · have below := furthest l seenL
          simp only [UInt64.le_iff_toNat_le] at below raised ⊢
          omega
        · rw [List.mem_singleton.mp newL]
          exact UInt64.le_refl _
    have remembered : (sweepStep spans (flags, some (j, highest)) i).2 ≠ none := by
      simp only [sweepStep]
      split <;> simp
    refine ⟨?_, ?_, fun none => (remembered none).elim, nextHighest⟩
    · simp only [sweepStep]
      split <;> simpa using lengthEq
    · intro k
      simp only [sweepStep]
      split
      next reach =>
        rw [highestEq] at reach
        exact flag_iff_of_overlap lengthEq flagIff bound (bounds j member) fresh ordered
          sorted member reach k
      next past =>
        apply flag_iff_of_clear flagIff fresh
        intro l seenL shares
        have reach := (sharesSector_of_sorted ordered (sorted l seenL)).mp shares
        have below := furthest l seenL
        simp only [UInt64.le_iff_toNat_le] at reach below past
        omega

end Step

/-- A whole sweep over entries sorted by start. -/
theorem sweepInvariant_foldl {spans : List (UInt64 × UInt64)} (seen rest : List Nat)
    {state : List Bool × Option (Nat × UInt64)}
    (ordered : ∀ i < spans.length, (spans.getD i (0, 0)).1 ≤ (spans.getD i (0, 0)).2)
    (invariant : SweepInvariant spans seen state)
    (bounds : ∀ i ∈ seen ++ rest, i < spans.length) (nodup : (seen ++ rest).Nodup)
    (sorted : (seen ++ rest).Pairwise fun i j =>
      (spans.getD i (0, 0)).1 ≤ (spans.getD j (0, 0)).1) :
    SweepInvariant spans (seen ++ rest) (rest.foldl (sweepStep spans) state) := by
  induction rest generalizing seen state with
  | nil => simpa using invariant
  | cons i rest ih =>
      have regroup : seen ++ i :: rest = (seen ++ [i]) ++ rest := by simp
      have bound : i < spans.length := bounds i (by simp)
      have fresh : i ∉ seen := by
        intro member
        exact List.disjoint_of_nodup_append nodup member (by simp)
      rw [List.foldl_cons, regroup]
      rw [regroup] at bounds nodup sorted
      apply ih (seen ++ [i]) _ bounds nodup sorted
      apply sweepInvariant_step invariant bound _ fresh (ordered i bound)
      · intro k member
        exact (List.pairwise_append.mp (List.pairwise_append.mp sorted).1).2.2 k member i
          (by simp)
      · intro k member
        exact bounds k (by simp [member])

theorem length_sweepStep (spans : List (UInt64 × UInt64))
    (state : List Bool × Option (Nat × UInt64)) (i : Nat) :
    (sweepStep spans state i).1.length = state.1.length := by
  simp only [sweepStep]
  split
  · split
    · rw [List.length_set, List.length_set]
    · rfl
  · rfl

/-- Every span gets a flag. -/
theorem length_markOverlaps (spans : List (UInt64 × UInt64)) :
    (markOverlaps spans).length = spans.length := by
  have swept : ∀ (order : List Nat) (state : List Bool × Option (Nat × UInt64)),
      (order.foldl (sweepStep spans) state).1.length = state.1.length := by
    intro order
    induction order with
    | nil => intro state; rfl
    | cons i order ih =>
        intro state
        rw [List.foldl_cons, ih, length_sweepStep]
  simp only [markOverlaps]
  rw [swept, List.length_replicate]

/-- An entry is marked exactly when another entry shares a sector with it. -/
theorem markOverlaps_flag_iff {spans : List (UInt64 × UInt64)}
    (ordered : ∀ span ∈ spans, span.1 ≤ span.2) :
    (markOverlaps spans).length = spans.length ∧
      ∀ i, (markOverlaps spans)[i]? = some true ↔
        i < spans.length ∧ ∃ j < spans.length, j ≠ i ∧
          SharesSector (spans.getD i (0, 0)) (spans.getD j (0, 0)) := by
  let before : Nat → Nat → Prop := fun i j =>
    (spans.getD i (0, 0)).1 ≤ (spans.getD j (0, 0)).1
  let order := (List.range spans.length).insertionSort before
  have permuted : order.Perm (List.range spans.length) := List.perm_insertionSort _ _
  have total : Std.Total before := ⟨fun i j => UInt64.le_total _ _⟩
  have trans : IsTrans Nat before := ⟨fun i j k first second => UInt64.le_trans first second⟩
  have sorted : order.Pairwise before := List.pairwise_insertionSort _ _
  have memberIff : ∀ i, i ∈ order ↔ i < spans.length := fun i => by
    rw [permuted.mem_iff, List.mem_range]
  have orderedAt : ∀ i < spans.length,
      (spans.getD i (0, 0)).1 ≤ (spans.getD i (0, 0)).2 := by
    intro i bound
    rw [List.getD_eq_getElem?_getD, List.getElem?_eq_getElem bound, Option.getD_some]
    exact ordered _ (List.getElem_mem bound)
  have swept := sweepInvariant_foldl [] order orderedAt (sweepInvariant_nil spans)
    (fun i member => (memberIff i).mp (by simpa using member))
    (by simpa using permuted.nodup_iff.mpr List.nodup_range)
    (by rw [List.nil_append]; exact sorted)
  refine ⟨swept.length_flags, fun i => ?_⟩
  rw [show markOverlaps spans = (order.foldl (sweepStep spans)
    (List.replicate spans.length false, none)).1 from rfl, swept.flag_iff]
  simp only [List.nil_append, memberIff]

/-- There is a flag for every span, and it is set exactly when some other span meets it. -/
theorem markOverlaps_meets {spans : List (UInt64 × UInt64)}
    (ordered : ∀ span ∈ spans, span.1 ≤ span.2) :
    (markOverlaps spans).length = spans.length ∧
      ∀ i, (markOverlaps spans)[i]? = some true ↔
        ∃ (j : Nat) (a b : UInt64 × UInt64), j ≠ i ∧ spans[i]? = some a ∧ spans[j]? = some b ∧
          a.1 ≤ b.2 ∧ b.1 ≤ a.2 := by
  obtain ⟨lengthEq, flagIff⟩ := markOverlaps_flag_iff ordered
  refine ⟨lengthEq, fun i => ?_⟩
  rw [flagIff]
  constructor
  · rintro ⟨bound, j, boundJ, differs, shares⟩
    simp only [List.getD_eq_getElem?_getD, List.getElem?_eq_getElem bound,
      List.getElem?_eq_getElem boundJ, Option.getD_some] at shares
    exact ⟨j, spans[i], spans[j], differs, List.getElem?_eq_getElem bound,
      List.getElem?_eq_getElem boundJ, shares⟩
  · rintro ⟨j, a, b, differs, atI, atJ, shares⟩
    obtain ⟨bound, rfl⟩ := List.getElem?_eq_some_iff.mp atI
    obtain ⟨boundJ, rfl⟩ := List.getElem?_eq_some_iff.mp atJ
    refine ⟨bound, j, boundJ, differs, ?_⟩
    simp only [List.getD_eq_getElem?_getD, List.getElem?_eq_getElem bound,
      List.getElem?_eq_getElem boundJ, Option.getD_some]
    exact shares

/-- A span inside an earlier one, and one that meets neither. -/
theorem markOverlaps_meets_nested :
    (markOverlaps [(5, 6), (9, 9), (1, 8)])[0]? = some true ∧
      (markOverlaps [(5, 6), (9, 9), (1, 8)])[1]? ≠ some true := by
  have meets := (@markOverlaps_meets [(5, 6), (9, 9), (1, 8)] (by simp)).2
  constructor
  · exact (meets 0).mpr ⟨2, (5, 6), (1, 8), by decide, rfl, rfl, by decide, by decide⟩
  · intro marked
    obtain ⟨j, a, b, differs, atI, atJ, first, second⟩ := (meets 1).mp marked
    cases atI
    have bound := (List.getElem?_eq_some_iff.mp atJ).1
    have cases : j = 0 ∨ j = 2 := by
      simp only [List.length_cons, List.length_nil] at bound
      omega
    rcases cases with rfl | rfl
    · cases atJ
      exact absurd first (by decide)
    · cases atJ
      exact absurd first (by decide)

/-- Nothing is marked when no two entries share a sector. -/
theorem markOverlaps_of_pairwise {spans : List (UInt64 × UInt64)}
    (ordered : ∀ span ∈ spans, span.1 ≤ span.2)
    (apart : spans.Pairwise fun a b => ¬ SharesSector a b) :
    markOverlaps spans = List.replicate spans.length false := by
  obtain ⟨lengthEq, flagIff⟩ := markOverlaps_flag_iff ordered
  apply List.eq_replicate_iff.mpr
  refine ⟨lengthEq, fun flag member => ?_⟩
  obtain ⟨i, bound, rfl⟩ := List.mem_iff_getElem.mp member
  rw [lengthEq] at bound
  cases marked : (markOverlaps spans)[i] with
  | false => rfl
  | true =>
      have found := (flagIff i).mp (by rw [List.getElem?_eq_getElem (by omega), marked])
      obtain ⟨_, j, boundJ, differs, shares⟩ := found
      simp only [List.getD_eq_getElem?_getD, List.getElem?_eq_getElem bound,
        List.getElem?_eq_getElem boundJ, Option.getD_some] at shares
      rcases Nat.lt_or_gt_of_ne differs with less | greater
      · exact (List.pairwise_iff_getElem.mp apart j i boundJ bound less shares.symm).elim
      · exact (List.pairwise_iff_getElem.mp apart i j bound boundJ greater shares).elim

/-- When nothing is marked, no two entries share a sector. -/
theorem pairwise_of_markOverlaps {spans : List (UInt64 × UInt64)}
    (ordered : ∀ span ∈ spans, span.1 ≤ span.2)
    (clear : (markOverlaps spans).any id = false) :
    spans.Pairwise fun a b => ¬ SharesSector a b := by
  obtain ⟨_, flagIff⟩ := markOverlaps_flag_iff ordered
  rw [List.pairwise_iff_getElem]
  intro i j boundI boundJ less shares
  have marked := (flagIff i).mpr ⟨boundI, j, boundJ, by omega, by
    simpa only [List.getD_eq_getElem?_getD, List.getElem?_eq_getElem boundI,
      List.getElem?_eq_getElem boundJ, Option.getD_some] using shares⟩
  rw [List.any_eq_false] at clear
  exact clear true (List.mem_of_getElem? marked) rfl

end DiskPartitions
