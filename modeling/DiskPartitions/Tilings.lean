import Mathlib.Algebra.GroupWithZero.Nat
import Mathlib.Data.List.Basic
import Mathlib.Data.List.Pairwise

/-!
# Tiles that follow one another

A store made of parts answers a position through the part that covers it.  Parts that
follow one another leave no gap and share nothing, so every position of the whole has
one answer; and when no part gives a place twice and no two parts give the same place,
neither does the whole.
-/

namespace Tilings

variable {α : Type*}

/-- A run of positions and the place of each, by its distance from the start. -/
structure Tile (α : Type*) where
  start : Nat
  len : Nat
  place : Nat → α

/-- The tile has the position. -/
def Tile.Covers (tile : Tile α) (position : Nat) : Prop :=
  tile.start ≤ position ∧ position < tile.start + tile.len

instance (tile : Tile α) (position : Nat) : Decidable (tile.Covers position) :=
  inferInstanceAs (Decidable (_ ∧ _))

/-- The tiles follow one another from `first` up to `last`. -/
def Tiles : List (Tile α) → Nat → Nat → Prop
  | [], first, last => first = last
  | tile :: tiles, first, last => tile.start = first ∧ Tiles tiles (first + tile.len) last

/-- The place of a position, in the first tile that covers it. -/
def locate (tiles : List (Tile α)) (position : Nat) : Option α :=
  (tiles.find? fun tile => tile.Covers position).map fun tile => tile.place (position - tile.start)

/-- No tile gives a place twice. -/
def Tile.Injective (tile : Tile α) : Prop :=
  ∀ first < tile.len, ∀ second < tile.len, tile.place first = tile.place second → first = second

/-- Two tiles have no place in common. -/
def Tile.Apart (first second : Tile α) : Prop :=
  ∀ i < first.len, ∀ j < second.len, first.place i ≠ second.place j

instance : Std.Symm (@Tile.Apart α) where
  symm _ _ apart i iWithin j jWithin shared := apart j jWithin i iWithin shared.symm

section Following

variable {tiles : List (Tile α)} {first last : Nat}

theorem Tiles.first_le (follow : Tiles tiles first last) : first ≤ last := by
  induction tiles generalizing first with
  | nil => exact Nat.le_of_eq follow
  | cons tile tiles ih =>
      have later := ih follow.2
      omega

/-- The tiles are together as long as what they cover. -/
theorem Tiles.sum_len (follow : Tiles tiles first last) :
    first + (tiles.map Tile.len).sum = last := by
  induction tiles generalizing first with
  | nil => exact follow
  | cons tile tiles ih =>
      rw [List.map_cons, List.sum_cons, ← Nat.add_assoc]
      exact ih follow.2

/-- Only the bounds of the tiles matter. -/
theorem Tiles.of_same_bounds {β : Type*} {others : List (Tile β)} (follow : Tiles tiles first last)
    (same : List.Forall₂ (fun tile other => other.start = tile.start ∧ other.len = tile.len)
      tiles others) :
    Tiles others first last := by
  induction same generalizing first with
  | nil => exact follow
  | cons bounds _ ih =>
      obtain ⟨start, len⟩ := bounds
      obtain ⟨starts, later⟩ := follow
      refine ⟨start.trans starts, ?_⟩
      rw [len]
      exact ih later

/-- Every tile lies between the ends. -/
theorem Tiles.inside (follow : Tiles tiles first last) {tile : Tile α} (member : tile ∈ tiles) :
    first ≤ tile.start ∧ tile.start + tile.len ≤ last := by
  induction tiles generalizing first with
  | nil => cases member
  | cons head tiles ih =>
      obtain ⟨starts, later⟩ := follow
      rcases List.mem_cons.mp member with rfl | further
      · have rest := later.first_le
        omega
      · have bounds := ih later further
        omega

/-- There is no gap. -/
theorem Tiles.exists_covers (follow : Tiles tiles first last) {position : Nat}
    (from_first : first ≤ position) (before_last : position < last) :
    ∃ tile ∈ tiles, tile.Covers position := by
  induction tiles generalizing first with
  | nil =>
      have empty : first = last := follow
      omega
  | cons head tiles ih =>
      obtain ⟨starts, later⟩ := follow
      by_cases own : position < first + head.len
      · exact ⟨head, by simp, by unfold Tile.Covers; omega⟩
      · obtain ⟨tile, member, covers⟩ := ih later (by omega)
        exact ⟨tile, List.mem_cons_of_mem head member, covers⟩

/-- There is no overlap: the tile that covers a position is the one that is found. -/
theorem Tiles.find_of_covers (follow : Tiles tiles first last) {tile : Tile α}
    (member : tile ∈ tiles) {position : Nat} (covers : tile.Covers position) :
    (tiles.find? fun tile => tile.Covers position) = some tile := by
  induction tiles generalizing first with
  | nil => cases member
  | cons head tiles ih =>
      obtain ⟨starts, later⟩ := follow
      rw [List.find?_cons]
      rcases List.mem_cons.mp member with rfl | further
      · simp [covers]
      · have bounds := later.inside further
        have past : ¬ head.Covers position := by
          unfold Tile.Covers at covers ⊢
          omega
        simp only [past, decide_false]
        exact ih later further

theorem Tiles.locate_of_mem (follow : Tiles tiles first last) {tile : Tile α}
    (member : tile ∈ tiles) {distance : Nat} (within : distance < tile.len) :
    locate tiles (tile.start + distance) = some (tile.place distance) := by
  have covers : tile.Covers (tile.start + distance) := by
    unfold Tile.Covers
    omega
  rw [locate, follow.find_of_covers member covers, Option.map_some, Nat.add_sub_cancel_left]

/-- Every position between the ends is a distance into one of the tiles. -/
theorem Tiles.exists_distance (follow : Tiles tiles first last) {position : Nat}
    (from_first : first ≤ position) (before_last : position < last) :
    ∃ tile ∈ tiles, ∃ distance < tile.len, position = tile.start + distance := by
  obtain ⟨tile, member, covers⟩ := follow.exists_covers from_first before_last
  unfold Tile.Covers at covers
  exact ⟨tile, member, position - tile.start, by omega, by omega⟩

/-- No place is given twice. -/
theorem Tiles.locate_injective (follow : Tiles tiles first last)
    (each : ∀ tile ∈ tiles, tile.Injective) (apart : tiles.Pairwise Tile.Apart) {p q : Nat}
    (p_from : first ≤ p) (p_before : p < last) (q_from : first ≤ q) (q_before : q < last)
    (same : locate tiles p = locate tiles q) : p = q := by
  obtain ⟨s, inS, i, iWithin, rfl⟩ := follow.exists_distance p_from p_before
  obtain ⟨t, inT, j, jWithin, rfl⟩ := follow.exists_distance q_from q_before
  rw [follow.locate_of_mem inS iWithin, follow.locate_of_mem inT jWithin,
    Option.some.injEq] at same
  by_cases equal : s = t
  · subst equal
    rw [each s inS i iWithin j jWithin same]
  · exact absurd same (apart.forall inS inT equal i iWithin j jWithin)

end Following

end Tilings
