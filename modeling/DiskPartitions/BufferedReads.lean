import DiskPartitions.Refusals
import DiskPartitions.ListSlices

/-!
# Reads into a buffer, piece by piece

A reader that cannot serve a request at once serves it in pieces: it reads a
part at the current position, moves on by what it got, and stops when nothing
is left or a part fails.  The pieces of one store join into one slice of it.
Buffers that are computed place by place are given by their contents at each
place.
-/

namespace BufferedReads

open Slices Refusals

variable {ε α β γ : Type}

/-! ## Buffers by their places -/

/-- The buffer of length `len` that holds `content place` at each place. -/
def buffer (len : Nat) (content : Nat → α) : List α :=
  (List.range len).map content

@[simp]
theorem length_buffer (len : Nat) (content : Nat → α) :
    (buffer len content).length = len := by
  simp [buffer]

theorem getElem?_buffer {len place : Nat} (content : Nat → α) (inside : place < len) :
    (buffer len content)[place]? = some (content place) := by
  rw [buffer, List.getElem?_map, List.getElem?_range inside, Option.map_some]

theorem buffer_congr {len : Nat} {first second : Nat → α}
    (same : ∀ place < len, first place = second place) :
    buffer len first = buffer len second := by
  apply List.map_congr_left
  intro place member
  exact same place (List.mem_range.mp member)

theorem map_buffer (f : α → β) (len : Nat) (content : Nat → α) :
    (buffer len content).map f = buffer len fun place => f (content place) := by
  simp [buffer]

theorem zipWith_buffer (f : α → β → γ) (len : Nat) (first : Nat → α) (second : Nat → β) :
    List.zipWith f (buffer len first) (buffer len second) =
      buffer len fun place => f (first place) (second place) := by
  simp [buffer]

theorem replicate_eq_buffer (len : Nat) (value : α) :
    List.replicate len value = buffer len fun _ => value := by
  simp [buffer]

/-- A region of a store, by its places. -/
theorem slice_eq_buffer [Inhabited α] {items : List α} {offset len : Nat}
    (inside : offset + len ≤ items.length) :
    slice items offset len = buffer len fun place => items.getD (offset + place) default := by
  apply List.ext_getElem?
  intro place
  rw [getElem?_slice]
  simp only [buffer, List.getElem?_map]
  by_cases within : place < len
  · have found : offset + place < items.length := by omega
    rw [if_pos within, List.getElem?_range within, Option.map_some, List.getD_eq_getElem?_getD,
      List.getElem?_eq_getElem found, Option.getD_some]
  · rw [if_neg within, List.getElem?_eq_none (by simpa using within), Option.map_none]

/-- A region of a buffer, by its places. -/
theorem slice_buffer {count offset len : Nat} (content : Nat → α)
    (inside : offset + len ≤ count) :
    slice (buffer count content) offset len = buffer len fun j => content (offset + j) := by
  apply List.ext_getElem?
  intro i
  rw [getElem?_slice]
  by_cases within : i < len
  · rw [if_pos within, getElem?_buffer _ within, getElem?_buffer _ (by omega)]
  · rw [if_neg within, List.getElem?_eq_none (by simpa using within)]

/-! ## Reading in pieces -/

/-- Read `left` items from `position` on.  `piece` reads some of them at a
position, at least one and at most as many as are left. -/
def readPieces (piece : Nat → Nat → Except ε (List α)) :
    Nat → Nat → Nat → Except ε (List α)
  | 0, _, _ => .ok []
  | fuel + 1, position, left =>
      if left = 0 then .ok []
      else do
        let items ← piece position left
        let rest ← readPieces piece fuel (position + items.length) (left - items.length)
        .ok (items ++ rest)

/-- Read `len` items from `offset` on; every piece reads at least one. -/
def readWhole (piece : Nat → Nat → Except ε (List α)) (offset len : Nat) :
    Except ε (List α) :=
  readPieces piece len offset len

/-- Pieces that are not empty and not longer than what is left fill the buffer. -/
theorem length_readPieces {piece : Nat → Nat → Except ε (List α)}
    (pieces : ∀ position left items, 0 < left → piece position left = .ok items →
      0 < items.length ∧ items.length ≤ left)
    {fuel position left : Nat} (enough : left ≤ fuel) {items : List α}
    (read : readPieces piece fuel position left = .ok items) : items.length = left := by
  induction fuel generalizing position left items with
  | zero =>
      cases read
      exact (Nat.le_zero.mp enough).symm
  | succ fuel ih =>
      rw [readPieces] at read
      split at read
      next none =>
        cases read
        exact none.symm
      next some_left =>
        obtain ⟨first, answered, read⟩ := bind_eq_ok.mp read
        obtain ⟨rest, later, read⟩ := bind_eq_ok.mp read
        cases read
        obtain ⟨positive, bounded⟩ := pieces position left first (Nat.pos_of_ne_zero some_left) answered
        rw [List.length_append, ih (by omega) later]
        omega

/-- A piece at a position either meets a place that cannot be read and fails,
or reads the store's items there. -/
structure PieceOf (store : List α) (lost : Nat → Prop) (position left : Nat)
    (result : Except ε (List α)) (taken : Nat) : Prop where
  positive : 0 < taken
  bounded : taken ≤ left
  fails : (∃ place, position ≤ place ∧ place < position + taken ∧ lost place) →
    ∃ error, result = .error error
  reads : (∀ place, position ≤ place → place < position + taken → ¬ lost place) →
    result = .ok (slice store position taken)

/-- A read in pieces fails when it meets a place that cannot be read, and reads
the store's items otherwise. -/
theorem readPieces_spec {piece : Nat → Nat → Except ε (List α)} {store : List α}
    {lost : Nat → Prop} {finish : Nat} (stored : finish ≤ store.length)
    (pieces : ∀ position left, 0 < left → position + left = finish →
      ∃ taken, PieceOf store lost position left (piece position left) taken)
    {fuel position left : Nat} (enough : left ≤ fuel) (ends : position + left = finish) :
    ((∃ place, position ≤ place ∧ place < position + left ∧ lost place) →
        ∃ error, readPieces piece fuel position left = .error error) ∧
      ((∀ place, position ≤ place → place < position + left → ¬ lost place) →
        readPieces piece fuel position left = .ok (slice store position left)) := by
  induction fuel generalizing position left with
  | zero =>
      obtain rfl : left = 0 := by omega
      constructor
      · rintro ⟨place, after, before, -⟩
        omega
      · intro _
        simp [readPieces, slice]
  | succ fuel ih =>
      rw [readPieces]
      by_cases none : left = 0
      · rw [if_pos none, none]
        constructor
        · rintro ⟨place, after, before, -⟩
          omega
        · intro _
          simp [slice]
      · rw [if_neg none]
        obtain ⟨taken, step⟩ := pieces position left (by omega) ends
        have positive := step.positive
        have bounded := step.bounded
        have inside : position + taken ≤ store.length := by omega
        obtain ⟨restFails, restReads⟩ :=
          @ih (position + taken) (left - taken) (by omega) (by omega)
        by_cases met : ∃ place, position ≤ place ∧ place < position + taken ∧ lost place
        · obtain ⟨error, failed⟩ := step.fails met
          rw [failed]
          constructor
          · intro _
            exact ⟨error, rfl⟩
          · intro clear
            obtain ⟨place, after, before, bad⟩ := met
            exact absurd bad (clear place after (by omega))
        · have clear : ∀ place, position ≤ place → place < position + taken → ¬ lost place :=
            fun place after before bad => met ⟨place, after, before, bad⟩
          rw [step.reads clear, ok_bind, length_slice inside]
          constructor
          · rintro ⟨place, after, before, bad⟩
            have later : position + taken ≤ place := by
              by_contra early
              exact clear place after (by omega) bad
            obtain ⟨error, failed⟩ := restFails ⟨place, later, by omega, bad⟩
            rw [failed]
            exact ⟨error, rfl⟩
          · intro allClear
            rw [restReads fun place after before => allClear place (by omega) (by omega), ok_bind,
              slice_append_slice, Nat.add_sub_cancel' bounded]

/-- Two readers that serve the same pieces from `start` on, the second `shift`
places further, read the same items. -/
theorem readPieces_moved {piece other : Nat → Nat → Except ε (List α)}
    {shift start finish : Nat}
    (same : ∀ position left, 0 < left → start ≤ position → position + left ≤ finish →
      piece position left = other (position + shift) left)
    {fuel position left : Nat} (after : start ≤ position) (inside : position + left ≤ finish) :
    readPieces piece fuel position left = readPieces other fuel (position + shift) left := by
  induction fuel generalizing position left with
  | zero => rfl
  | succ fuel ih =>
      rw [readPieces, readPieces]
      by_cases none : left = 0
      · rw [if_pos none, if_pos none]
      · rw [if_neg none, if_neg none, ← same position left (by omega) after inside]
        congr 1
        funext items
        congr 1
        -- a piece longer than was asked for is the last
        by_cases short : items.length ≤ left
        · rw [Nat.add_right_comm]
          exact ih (by omega) (by omega)
        · rw [Nat.sub_eq_zero_of_le (by omega)]
          cases fuel with
          | zero => rfl
          | succ fuel => rw [readPieces, readPieces, if_pos rfl, if_pos rfl]

/-- Pieces that each hold what is meant to be at their places join into a buffer that
does. -/
theorem readPieces_content {piece : Nat → Nat → Except ε (List α)} {content : Nat → α}
    {finish : Nat}
    (pieces : ∀ position left, 0 < left → position + left = finish →
      ∃ taken, 0 < taken ∧ taken ≤ left ∧
        piece position left = .ok (buffer taken fun j => content (position + j)))
    {fuel position left : Nat} (enough : left ≤ fuel) (ends : position + left = finish) :
    readPieces piece fuel position left = .ok (buffer left fun j => content (position + j)) := by
  have stored : finish ≤ (buffer finish content).length :=
    Nat.le_of_eq (length_buffer finish content).symm
  have steps : ∀ position left, 0 < left → position + left = finish → ∃ taken,
      PieceOf (buffer finish content) (fun _ => False) position left (piece position left)
        taken := by
    intro position left some_left ends
    obtain ⟨taken, positive, bounded, read⟩ := pieces position left some_left ends
    refine ⟨taken, positive, bounded, ?_, fun _ => ?_⟩
    · rintro ⟨_, _, _, lost⟩
      exact lost.elim
    · rw [read, slice_buffer content (by omega)]
  have whole := (readPieces_spec stored steps enough ends).2 fun _ _ _ lost => lost
  rw [whole, slice_buffer content (by omega)]

end BufferedReads
