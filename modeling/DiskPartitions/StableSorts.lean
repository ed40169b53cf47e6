import Mathlib.Data.List.Sort

/-!
# Stable sorts and the order of ties

Sorting by a key keeps the items of each key in the order they came in.  So two lists sort to
the same list exactly when, key by key, they hold the same items in the same order; and a list
whose keys repeat has an arrangement that sorts to something else.
-/

namespace StableSorts

variable {α β : Type*} (key : α → Nat)

/-- The items by key; items with equal keys keep their order. -/
def sortBy (items : List α) : List α :=
  items.insertionSort fun first second => key first ≤ key second

/-- The items with a key, in order. -/
def withKey (items : List α) (k : Nat) : List α := items.filter fun item => key item = k

variable {key}

theorem withKey_cons (item : α) (items : List α) (k : Nat) :
    withKey key (item :: items) k =
      if key item = k then item :: withKey key items k else withKey key items k := by
  by_cases same : key item = k <;> simp [withKey, same]

theorem mem_withKey {items : List α} {k : Nat} {item : α} :
    item ∈ withKey key items k ↔ item ∈ items ∧ key item = k := by
  simp [withKey]

theorem sortBy_perm (items : List α) : (sortBy key items).Perm items :=
  List.perm_insertionSort _ items

theorem pairwise_sortBy (items : List α) :
    (sortBy key items).Pairwise fun first second => key first ≤ key second := by
  have : IsTrans α fun first second => key first ≤ key second := ⟨fun _ _ _ => Nat.le_trans⟩
  have : Std.Total fun first second : α => key first ≤ key second := ⟨fun _ _ => Nat.le_total _ _⟩
  exact List.pairwise_insertionSort _ items

/-- What is passed over on the way has smaller keys. -/
theorem withKey_orderedInsert (item : α) (items : List α) (k : Nat) :
    withKey key (items.orderedInsert (fun first second => key first ≤ key second) item) k =
      withKey key (item :: items) k := by
  induction items with
  | nil => rfl
  | cons head tail ih =>
      rw [List.orderedInsert_cons]
      by_cases before : key item ≤ key head
      · rw [if_pos before]
      · rw [if_neg before, withKey_cons, ih]
        simp only [withKey_cons]
        by_cases same : key item = k
        · have other : ¬ key head = k := by omega
          rw [if_neg other, if_neg other]
        · rw [if_neg same, if_neg same]

/-- The items of a key keep their order. -/
theorem withKey_sortBy (items : List α) (k : Nat) :
    withKey key (sortBy key items) k = withKey key items k := by
  induction items with
  | nil => rfl
  | cons head tail ih =>
      rw [sortBy, List.insertionSort_cons, withKey_orderedInsert, withKey_cons, withKey_cons,
        ← sortBy, ih]

/-- The key of the first item of a sorted list is at most every key of it. -/
theorem head_key_le {head : α} {tail : List α}
    (sorted : (head :: tail).Pairwise fun first second => key first ≤ key second) {item : α}
    (member : item ∈ head :: tail) : key head ≤ key item := by
  rcases List.mem_cons.mp member with rfl | later
  · exact Nat.le_refl _
  · exact (List.pairwise_cons.mp sorted).1 item later

/-- Sorted lists that agree key by key are equal. -/
theorem eq_of_withKey {first second : List α}
    (firstSorted : first.Pairwise fun a b => key a ≤ key b)
    (secondSorted : second.Pairwise fun a b => key a ≤ key b)
    (same : ∀ k, withKey key first k = withKey key second k) : first = second := by
  have members : ∀ item, item ∈ first ↔ item ∈ second := by
    intro item
    have here := same (key item)
    constructor
    · intro member
      exact (mem_withKey.mp (here ▸ mem_withKey.mpr ⟨member, rfl⟩)).1
    · intro member
      exact (mem_withKey.mp (here ▸ mem_withKey.mpr ⟨member, rfl⟩)).1
  induction first generalizing second with
  | nil =>
      cases second with
      | nil => rfl
      | cons head tail => exact absurd ((members head).mpr List.mem_cons_self) List.not_mem_nil
  | cons a first ih =>
      cases second with
      | nil => exact absurd ((members a).mp List.mem_cons_self) List.not_mem_nil
      | cons b second =>
          have least := head_key_le firstSorted ((members b).mpr List.mem_cons_self)
          have greatest := head_key_le secondSorted ((members a).mp List.mem_cons_self)
          have equal : key a = key b := Nat.le_antisymm least greatest
          have heads := same (key a)
          rw [withKey_cons, withKey_cons, if_pos rfl, if_pos equal.symm, List.cons.injEq] at heads
          obtain ⟨rfl, -⟩ := heads
          have tails : ∀ k, withKey key first k = withKey key second k := by
            intro k
            have here := same k
            rw [withKey_cons, withKey_cons] at here
            by_cases own : key a = k
            · rw [if_pos own, if_pos own, List.cons.injEq] at here
              exact here.2
            · rwa [if_neg own, if_neg own] at here
          have rest : ∀ item, item ∈ first ↔ item ∈ second := by
            intro item
            have here := tails (key item)
            constructor
            · intro member
              exact (mem_withKey.mp (here ▸ mem_withKey.mpr ⟨member, rfl⟩)).1
            · intro member
              exact (mem_withKey.mp (here ▸ mem_withKey.mpr ⟨member, rfl⟩)).1
          rw [ih firstSorted.of_cons secondSorted.of_cons tails rest]

/-- Two lists sort alike exactly when they hold the same items of each key in the same
order. -/
theorem sortBy_eq_iff {first second : List α} :
    sortBy key first = sortBy key second ↔ ∀ k, withKey key first k = withKey key second k := by
  constructor
  · intro same k
    rw [← withKey_sortBy first, same, withKey_sortBy]
  · intro same
    apply eq_of_withKey (pairwise_sortBy first) (pairwise_sortBy second)
    intro k
    rw [withKey_sortBy, withKey_sortBy, same]

/-- With distinct keys the order of the items does not matter. -/
theorem sortBy_of_perm {first second : List α} (perm : first.Perm second)
    (distinct : (second.map key).Nodup) : sortBy key first = sortBy key second := by
  rw [sortBy_eq_iff]
  intro k
  have shorter : ∀ items : List α, (items.map key).Nodup → (withKey key items k).length ≤ 1 := by
    intro items nodup
    induction items with
    | nil => simp [withKey]
    | cons head tail ih =>
        rw [List.map_cons, List.nodup_cons] at nodup
        rw [withKey_cons]
        split
        next same =>
          have none : withKey key tail k = [] := by
            rw [List.eq_nil_iff_forall_not_mem]
            intro item member
            obtain ⟨there, equal⟩ := mem_withKey.mp member
            exact nodup.1 (same ▸ equal ▸ List.mem_map_of_mem there)
          simp [none]
        next => exact ih nodup.2
  have filtered : (withKey key first k).Perm (withKey key second k) := perm.filter _
  match one : withKey key second k, shorter second distinct, filtered with
  | [], _, filtered => exact filtered.eq_nil
  | [item], _, filtered => exact List.perm_singleton.mp filtered
  | _ :: _ :: _, long, _ => simp at long

/-- Items with equal keys can be arranged to sort to something else. -/
theorem exists_perm_sortBy_ne {items : List α} (distinct : items.Nodup)
    (repeated : ¬ (items.map key).Nodup) :
    ∃ other, other.Perm items ∧ sortBy key other ≠ sortBy key items := by
  rw [List.nodup_iff_sublist] at repeated
  push Not at repeated
  obtain ⟨k, twice⟩ := repeated
  obtain ⟨pair, inside, keys⟩ := List.sublist_map_iff.mp twice
  obtain ⟨first, afterFirst, rfl, firstKey, after⟩ := List.map_eq_cons_iff.mp keys.symm
  obtain ⟨second, afterSecond, rfl, secondKey, none⟩ := List.map_eq_cons_iff.mp after
  obtain rfl := List.map_eq_nil_iff.mp none
  have apart : first ≠ second := by simpa using distinct.sublist inside
  obtain ⟨rest, arranged⟩ := inside.exists_perm_append
  -- the two arrangements that begin with the pair do not sort alike
  have differ : sortBy key (first :: second :: rest) ≠
      sortBy key (second :: first :: rest) := by
    intro same
    have here := sortBy_eq_iff.mp same k
    simp only [withKey_cons, if_pos firstKey, if_pos secondKey, List.cons.injEq] at here
    exact apart here.1
  by_cases same : sortBy key (first :: second :: rest) = sortBy key items
  · refine ⟨second :: first :: rest, (List.Perm.swap _ _ _).trans arranged.symm, ?_⟩
    intro other
    exact differ (same.trans other.symm)
  · exact ⟨first :: second :: rest, arranged.symm, same⟩

/-- A rearrangement of the images is the image of a rearrangement. -/
theorem exists_perm_map (f : α → β) {items : List α} {images : List β}
    (perm : images.Perm (items.map f)) :
    ∃ others : List α, others.Perm items ∧ others.map f = images := by
  generalize mapped : items.map f = whole at perm
  induction perm generalizing items with
  | nil => exact ⟨[], by simp [List.map_eq_nil_iff.mp mapped], rfl⟩
  | cons image _ ih =>
      obtain ⟨item, rest, rfl, rfl, tail⟩ := List.map_eq_cons_iff.mp mapped
      obtain ⟨others, arranged, equal⟩ := ih tail
      exact ⟨item :: others, arranged.cons item, by rw [List.map_cons, equal]⟩
  | swap first second tail =>
      obtain ⟨item, rest, rfl, rfl, after⟩ := List.map_eq_cons_iff.mp mapped
      obtain ⟨next, rest, rfl, rfl, rfl⟩ := List.map_eq_cons_iff.mp after
      exact ⟨next :: item :: rest, List.Perm.swap _ _ _, rfl⟩
  | trans _ _ firstHalf secondHalf =>
      obtain ⟨middle, arranged, equal⟩ := secondHalf mapped
      obtain ⟨others, again, images⟩ := firstHalf equal
      exact ⟨others, again.trans arranged, images⟩

end StableSorts
