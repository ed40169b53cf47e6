import Mathlib.Data.List.Nodup
import Mathlib.Data.List.Perm.Basic

/-!
# Lists in the order of a key

A table of `count` seats is read seat by seat, so a list whose items sit in
distinct seats comes back in the order of its seats.
-/

namespace KeyOrder

variable {α : Type*} (key : α → Nat)

/-- The item at seat `i`. -/
def itemAt (items : List α) (i : Nat) : Option α := items.find? fun item => key item == i

/-- The items by seat, as a pass over the seats `0, …, count - 1` meets them. -/
def byKey (count : Nat) (items : List α) : List α :=
  (List.range count).filterMap (itemAt key items)

variable {key} {items : List α}

theorem itemAt_eq_none {i : Nat} :
    itemAt key items i = none ↔ ∀ item ∈ items, key item ≠ i := by
  simp [itemAt]

theorem key_of_itemAt {i : Nat} {item : α} (found : itemAt key items i = some item) :
    item ∈ items ∧ key item = i :=
  ⟨List.mem_of_find?_eq_some found, by simpa using List.find?_some found⟩

theorem itemAt_append (first second : List α) (i : Nat) :
    itemAt key (first ++ second) i = (itemAt key first i).or (itemAt key second i) :=
  List.find?_append

theorem itemAt_map {β : Type*} (f : β → α) (items : List β) (i : Nat) :
    itemAt key (items.map f) i = (itemAt (key ∘ f) items i).map f :=
  List.find?_map

theorem itemAt_cons (item : α) (i : Nat) :
    itemAt key (item :: items) i = if key item = i then some item else itemAt key items i := by
  unfold itemAt
  rw [List.find?_cons]
  by_cases same : key item = i
  · simp [same]
  · have unequal : (key item == i) = false := by simpa using same
    rw [unequal, if_neg same]

/-- With distinct keys every item is the one at its seat. -/
theorem itemAt_of_mem (distinct : (items.map key).Nodup) {item : α} (member : item ∈ items) :
    itemAt key items (key item) = some item := by
  induction items with
  | nil => cases member
  | cons head tail ih =>
      rw [List.map_cons, List.nodup_cons] at distinct
      rw [itemAt_cons]
      rcases List.mem_cons.mp member with rfl | later
      · rw [if_pos rfl]
      · rw [if_neg, ih distinct.2 later]
        intro same
        exact distinct.1 (same ▸ List.mem_map_of_mem later)

/-- A function changed at the seat of every item, in order. -/
theorem foldl_update {β : Type*} (value : α → β) (base : Nat → β)
    (distinct : (items.map key).Nodup) :
    items.foldl (fun f item => Function.update f (key item) (value item)) base =
      fun i => ((itemAt key items i).map value).getD (base i) := by
  induction items generalizing base with
  | nil => rfl
  | cons head tail ih =>
      rw [List.map_cons, List.nodup_cons] at distinct
      rw [List.foldl_cons, ih _ distinct.2]
      funext i
      rw [itemAt_cons]
      by_cases same : key head = i
      · have absent : itemAt key tail i = none := by
          rw [itemAt_eq_none]
          intro item member equal
          exact distinct.1 (same ▸ equal ▸ List.mem_map_of_mem member)
        rw [if_pos same, absent, ← same]
        simp
      · rw [if_neg same, Function.update_of_ne (Ne.symm same)]

theorem mem_byKey {count : Nat} (distinct : (items.map key).Nodup)
    (bounded : ∀ item ∈ items, key item < count) {item : α} :
    item ∈ byKey key count items ↔ item ∈ items := by
  rw [byKey, List.mem_filterMap]
  constructor
  · rintro ⟨i, _, found⟩
    exact (key_of_itemAt found).1
  · intro member
    exact ⟨key item, List.mem_range.mpr (bounded item member), itemAt_of_mem distinct member⟩

/-- The keys increase along the list. -/
theorem pairwise_byKey (count : Nat) (items : List α) :
    (byKey key count items).Pairwise fun first second => key first < key second := by
  unfold byKey
  rw [List.pairwise_filterMap]
  refine List.pairwise_lt_range.imp fun {i j} less first atFirst second atSecond => ?_
  rw [(key_of_itemAt atFirst).2, (key_of_itemAt atSecond).2]
  exact less

/-- No item is lost and none is repeated. -/
theorem byKey_perm {count : Nat} (distinct : (items.map key).Nodup)
    (bounded : ∀ item ∈ items, key item < count) : (byKey key count items).Perm items := by
  rw [List.perm_ext_iff_of_nodup]
  · intro item
    exact mem_byKey distinct bounded
  · refine (pairwise_byKey count items).imp fun {first second} less same => ?_
    subst same
    exact Nat.lt_irrefl _ less
  · exact distinct.of_map

/-- Sorting the items moves none of them to another seat. -/
theorem itemAt_byKey {count : Nat} (distinct : (items.map key).Nodup)
    (bounded : ∀ item ∈ items, key item < count) (i : Nat) :
    itemAt key (byKey key count items) i = itemAt key items i := by
  have sorted := byKey_perm distinct bounded
  cases found : itemAt key items i with
  | none =>
      rw [itemAt_eq_none] at found ⊢
      exact fun item member => found item (sorted.mem_iff.mp member)
  | some item =>
      obtain ⟨member, rfl⟩ := key_of_itemAt found
      exact itemAt_of_mem ((sorted.map key).nodup_iff.mpr distinct) (sorted.mem_iff.mpr member)

/-- Items that already come in the order of their keys stay as they are. -/
theorem byKey_of_pairwise {count : Nat} (bounded : ∀ item ∈ items, key item < count)
    (ordered : items.Pairwise fun first second => key first < key second) :
    byKey key count items = items := by
  have distinct : (items.map key).Nodup := by
    rw [List.Nodup, List.pairwise_map]
    exact ordered.imp fun less => Nat.ne_of_lt less
  refine (byKey_perm distinct bounded).eq_of_pairwise (fun a b _ _ less more => ?_)
    (pairwise_byKey count items) ordered
  exact absurd less (Nat.lt_asymm more)

end KeyOrder
