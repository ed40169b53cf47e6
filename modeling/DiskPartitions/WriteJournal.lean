import DiskPartitions.ListSlices

/-!
# Sequences of writes and the states a crash can leave

A store is a list and a write replaces the items at one place.  A device
carries a long write out in pieces of one sector, in order, and a power cut
stops it between two pieces.  The states a sequence of writes can leave behind
are therefore the results of the prefixes of its list of pieces.
-/

namespace WriteJournal

open Slices

variable {α : Type*}

/-- Two regions, each given by its start and its length, have no place in common. -/
def Apart (first second : Nat × Nat) : Prop :=
  first.1 + first.2 ≤ second.1 ∨ second.1 + second.2 ≤ first.1

/-- Items to put over a store's contents from `offset` on. -/
structure Write (α : Type*) where
  offset : Nat
  data : List α
  deriving DecidableEq

namespace Write

/-- The store after the write. -/
def apply (write : Write α) (store : List α) : List α :=
  splice store write.offset write.data

/-- The write stays inside a store of `size` items. -/
def Inside (write : Write α) (size : Nat) : Prop :=
  write.offset + write.data.length ≤ size

/-- No item is written by both. -/
def Disjoint (first second : Write α) : Prop :=
  first.offset + first.data.length ≤ second.offset ∨
    second.offset + second.data.length ≤ first.offset

/-- Where the write puts its items: the first place and how many. -/
def region (write : Write α) : Nat × Nat := (write.offset, write.data.length)

/-- How many pieces of `width` items the write is carried out in. -/
def pieceCount (width : Nat) (write : Write α) : Nat :=
  (write.data.length + width - 1) / width

/-- The pieces of `width` items, the last one possibly shorter. -/
def pieces (width : Nat) (write : Write α) : List (Write α) :=
  (List.range (write.pieceCount width)).map fun index =>
    ⟨write.offset + index * width, slice write.data (index * width) width⟩

@[simp]
theorem length_pieces (width : Nat) (write : Write α) :
    (write.pieces width).length = write.pieceCount width := by
  simp [pieces]

theorem length_apply {write : Write α} {store : List α}
    (inside : write.Inside store.length) : (write.apply store).length = store.length :=
  length_splice inside

end Write

/-- The store after all the writes, in order. -/
def applyAll (writes : List (Write α)) (store : List α) : List α :=
  writes.foldl (fun store write => write.apply store) store

@[simp]
theorem applyAll_nil (store : List α) : applyAll [] store = store := rfl

@[simp]
theorem applyAll_cons (write : Write α) (writes : List (Write α)) (store : List α) :
    applyAll (write :: writes) store = applyAll writes (write.apply store) := rfl

theorem applyAll_append (first second : List (Write α)) (store : List α) :
    applyAll (first ++ second) store = applyAll second (applyAll first store) := by
  simp [applyAll]

theorem length_applyAll {writes : List (Write α)} {store : List α}
    (inside : ∀ write ∈ writes, write.Inside store.length) :
    (applyAll writes store).length = store.length := by
  induction writes generalizing store with
  | nil => rfl
  | cons write writes ih =>
      have first := Write.length_apply (inside write (by simp))
      rw [applyAll_cons, ih (by
        intro other member
        rw [first]
        exact inside other (by simp [member])), first]

/-- Writing what is already there changes nothing. -/
theorem applyAll_of_held {writes : List (Write α)} {store : List α}
    (inside : ∀ write ∈ writes, write.Inside store.length)
    (held : ∀ write ∈ writes, slice store write.offset write.data.length = write.data) :
    applyAll writes store = store := by
  induction writes with
  | nil => rfl
  | cons write writes ih =>
      have same : write.apply store = store := by
        have whole := splice_slice_self (inside write (by simp))
        rwa [held write (by simp)] at whole
      rw [applyAll_cons, same]
      exact ih (fun other member => inside other (by simp [member]))
        fun other member => held other (by simp [member])

/-- A region that none of the writes meets is as it was. -/
theorem slice_applyAll_disjoint {writes : List (Write α)} {store : List α}
    {start len : Nat} (inside : ∀ write ∈ writes, write.Inside store.length)
    (disjoint : ∀ write ∈ writes,
      start + len ≤ write.offset ∨ write.offset + write.data.length ≤ start) :
    slice (applyAll writes store) start len = slice store start len := by
  induction writes generalizing store with
  | nil => rfl
  | cons write writes ih =>
      have first := Write.length_apply (inside write (by simp))
      rw [applyAll_cons, ih (by
          intro other member
          rw [first]
          exact inside other (by simp [member]))
        (fun other member => disjoint other (by simp [member]))]
      exact slice_splice_disjoint (inside write (by simp)) (disjoint write (by simp))

/-- An item outside every write is as it was. -/
theorem getElem?_applyAll_outside {writes : List (Write α)} {store : List α} {index : Nat}
    (inside : ∀ write ∈ writes, write.Inside store.length)
    (outside : ∀ write ∈ writes,
      index < write.offset ∨ write.offset + write.data.length ≤ index) :
    (applyAll writes store)[index]? = store[index]? := by
  have same : slice (applyAll writes store) index 1 = slice store index 1 :=
    slice_applyAll_disjoint inside fun write member => by
      have := outside write member
      omega
  have first := congrArg (fun items => items[0]?) same
  simpa [getElem?_slice] using first

/-- A region written once holds what that write put there, when no other write
of the sequence meets it. -/
theorem slice_applyAll_written (before : List (Write α)) (write : Write α)
    (after : List (Write α)) {store : List α}
    (inside : ∀ other ∈ before ++ write :: after, other.Inside store.length)
    (disjoint : ∀ other ∈ after, write.Disjoint other) :
    slice (applyAll (before ++ write :: after) store) write.offset write.data.length =
      write.data := by
  have beforeLength : (applyAll before store).length = store.length :=
    length_applyAll fun other member => inside other (by simp [member])
  have writeInside : write.Inside (applyAll before store).length := by
    rw [beforeLength]
    exact inside write (by simp)
  rw [applyAll_append, applyAll_cons, slice_applyAll_disjoint]
  · exact slice_splice_self writeInside
  · intro other member
    rw [Write.length_apply writeInside, beforeLength]
    exact inside other (by simp [member])
  · intro other member
    exact disjoint other member

/-- Each of several writes that keep apart can be read back. -/
theorem slice_applyAll_of_mem {writes : List (Write α)} {store : List α}
    (inside : ∀ write ∈ writes, write.Inside store.length)
    (apart : writes.Pairwise Write.Disjoint) {write : Write α} (member : write ∈ writes) :
    slice (applyAll writes store) write.offset write.data.length = write.data := by
  obtain ⟨before, after, rfl⟩ := List.append_of_mem member
  rw [List.pairwise_append, List.pairwise_cons] at apart
  exact slice_applyAll_written before write after inside apart.2.1.1

/-- Adjacent writes join into one. -/
theorem splice_splice_adjacent (store first second : List α) (offset : Nat)
    (inside : offset + first.length + second.length ≤ store.length) :
    splice (splice store offset first) (offset + first.length) second =
      splice store offset (first ++ second) := by
  have firstLength : (splice store offset first).length = store.length :=
    length_splice (by omega)
  apply List.ext_getElem?
  intro index
  rw [getElem?_splice (by omega), getElem?_splice (by omega),
    getElem?_splice (by rw [List.length_append]; omega), List.length_append]
  by_cases second : offset + first.length ≤ index ∧
      index < offset + first.length + second.length
  · rw [if_pos second, if_pos (by omega), List.getElem?_append_right (by omega)]
    congr 1
    omega
  · rw [if_neg second]
    by_cases first : offset ≤ index ∧ index < offset + first.length
    · rw [if_pos first, if_pos (by omega), List.getElem?_append_left (by omega)]
    · rw [if_neg first, if_neg (by omega)]

namespace Write

/-- The same items, `distance` further on. -/
def shift (distance : Nat) (write : Write α) : Write α :=
  ⟨distance + write.offset, write.data⟩

end Write

/-- Writes into one block of a table change that block as they would change it
alone. -/
theorem applyAll_shift_blocks {block : Nat → List α} {width count index : Nat}
    (widths : ∀ index < count, (block index).length = width) (present : index < count)
    {writes : List (Write α)} (inside : ∀ write ∈ writes, write.Inside width) :
    applyAll (writes.map (Write.shift (index * width))) (blocks block count) =
      blocks (Function.update block index (applyAll writes (block index))) count := by
  induction writes generalizing block with
  | nil => simp
  | cons write writes ih =>
      have first : write.Inside width := inside write (by simp)
      have stepped : (write.shift (index * width)).apply (blocks block count) =
          blocks (Function.update block index (write.apply (block index))) count :=
        splice_blocks widths present first
      have blockWidth : (write.apply (block index)).length = width := by
        rw [Write.length_apply (by rw [widths index present]; exact first),
          widths index present]
      rw [List.map_cons, applyAll_cons, stepped, ih (by
          intro other bound
          by_cases same : other = index
          · subst same
            rw [Function.update_self, blockWidth]
          · rw [Function.update_of_ne same, widths other bound])
        (fun other member => inside other (by simp [member])),
        Function.update_self, Function.update_idem, applyAll_cons]

/-- Carrying out the first `count` pieces of a write puts down the first
`count * width` of its items. -/
theorem applyAll_take_pieces {width : Nat} (positive : 0 < width) {write : Write α}
    {store : List α} (inside : write.Inside store.length) {count : Nat}
    (bound : count ≤ write.pieceCount width) :
    applyAll ((write.pieces width).take count) store =
      splice store write.offset (write.data.take (count * width)) := by
  induction count with
  | zero => simp
  | succ count ih =>
      have started : count * width < write.data.length := by
        have blocks : (count + 1) * width ≤ write.data.length + width - 1 :=
          (Nat.le_div_iff_mul_le positive).mp bound
        rw [Nat.succ_mul] at blocks
        omega
      have prefixLength : (write.data.take (count * width)).length = count * width := by
        rw [List.length_take]
        omega
      have piece : (write.pieces width)[count]? = some
          ⟨write.offset + count * width, slice write.data (count * width) width⟩ := by
        simp [Write.pieces, List.getElem?_range (by omega : count < write.pieceCount width)]
      have pieceLength : (slice write.data (count * width) width).length ≤
          write.data.length - count * width := by
        simp only [slice, List.length_take, List.length_drop]
        omega
      have room : write.offset + write.data.length ≤ store.length := inside
      rw [List.take_add_one, piece, Option.toList_some, applyAll_append,
        ih (by omega), applyAll_cons, applyAll_nil, Write.apply, Nat.succ_mul,
        List.take_add]
      simp only
      have joined := splice_splice_adjacent store (write.data.take (count * width))
        (slice write.data (count * width) width) write.offset (by omega)
      rw [prefixLength] at joined
      exact joined

theorem applyAll_pieces {width : Nat} (positive : 0 < width) {write : Write α}
    {store : List α} (inside : write.Inside store.length) :
    applyAll (write.pieces width) store = write.apply store := by
  have whole := applyAll_take_pieces positive inside (Nat.le_refl (write.pieceCount width))
  have covered : write.data.length ≤ write.pieceCount width * width := by
    have remainder := Nat.div_add_mod (write.data.length + width - 1) width
    have small := Nat.mod_lt (write.data.length + width - 1) positive
    rw [Nat.mul_comm] at remainder
    unfold Write.pieceCount
    omega
  rwa [List.take_of_length_le (by simp), List.take_of_length_le covered] at whole

/-- The store a sequence of writes leaves when it stops after `count` pieces. -/
def crash (width : Nat) (writes : List (Write α)) (count : Nat) (store : List α) : List α :=
  applyAll ((writes.flatMap (Write.pieces width)).take count) store

@[simp]
theorem crash_nil (width count : Nat) (store : List α) :
    crash width [] count store = store := by
  simp [crash]

/-- A stop falls inside the first write or after it. -/
theorem crash_cons {width : Nat} (positive : 0 < width) {write : Write α}
    {writes : List (Write α)} {store : List α} (inside : write.Inside store.length)
    (count : Nat) :
    crash width (write :: writes) count store =
      if count < write.pieceCount width then
        splice store write.offset (write.data.take (count * width))
      else crash width writes (count - write.pieceCount width) (write.apply store) := by
  unfold crash
  rw [List.flatMap_cons]
  split
  next early =>
    rw [List.take_append_of_le_length (by rw [Write.length_pieces]; omega),
      applyAll_take_pieces positive inside (by omega)]
  next late =>
    rw [List.take_append, List.take_of_length_le (by rw [Write.length_pieces]; omega),
      applyAll_append, applyAll_pieces positive inside, Write.length_pieces]

/-- The writes that reached the store when a sequence stopped inside its write number
`reached`, after `count` pieces of it. -/
def reachedWrites (width : Nat) (writes : List (Write α)) (reached : Nat)
    (current : Write α) (count : Nat) : List (Write α) :=
  writes.take reached ++ [⟨current.offset, current.data.take (count * width)⟩]

/-- A sequence of writes stops inside one of them, or not at all. -/
theorem crash_cases {width : Nat} (positive : 0 < width) {writes : List (Write α)}
    {store : List α} (inside : ∀ write ∈ writes, write.Inside store.length) (count : Nat) :
    (∃ reached current done, writes[reached]? = some current ∧
      done < current.pieceCount width ∧
      crash width writes count store =
        applyAll (reachedWrites width writes reached current done) store) ∨
      crash width writes count store = applyAll writes store := by
  induction writes generalizing store count with
  | nil => exact .inr (by simp)
  | cons write writes ih =>
      have first : write.Inside store.length := inside write (by simp)
      rw [crash_cons positive first]
      split
      next early =>
        refine .inl ⟨0, write, count, rfl, early, ?_⟩
        simp [reachedWrites, Write.apply]
      next late =>
        have later : ∀ other ∈ writes, other.Inside (write.apply store).length := by
          intro other member
          rw [Write.length_apply first]
          exact inside other (by simp [member])
        rcases ih later (count - write.pieceCount width) with
          ⟨reached, current, done, found, bound, state⟩ | state
        · refine .inl ⟨reached + 1, current, done, by simpa using found, bound, ?_⟩
          rw [state]
          simp [reachedWrites]
        · exact .inr (by rw [state, applyAll_cons])

end WriteJournal
