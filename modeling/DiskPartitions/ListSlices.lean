import Mathlib.Data.List.Forall2

/-!
# Slices and splices of lists

A random-access store is a list.  Reading a region is taking a slice of it,
writing a region is splicing new items over the old ones, and a table of
fixed-width records is a concatenation of equally long blocks.  This file
collects how slices see splices: inside the written region, outside it, and
around it.
-/

namespace Slices

variable {α : Type*}

/-- The `len` items starting at position `offset`. -/
def slice (items : List α) (offset len : Nat) : List α :=
  (items.drop offset).take len

/-- The list with `data` written over the positions from `offset` on. -/
def splice (items : List α) (offset : Nat) (data : List α) : List α :=
  items.take offset ++ data ++ items.drop (offset + data.length)

theorem getElem?_slice (items : List α) (offset len index : Nat) :
    (slice items offset len)[index]? =
      if index < len then items[offset + index]? else none := by
  simp [slice, List.getElem?_take, List.getElem?_drop]

theorem length_slice {items : List α} {offset len : Nat}
    (inside : offset + len ≤ items.length) :
    (slice items offset len).length = len := by
  simp only [slice, List.length_take, List.length_drop]
  omega

theorem length_splice {items data : List α} {offset : Nat}
    (inside : offset + data.length ≤ items.length) :
    (splice items offset data).length = items.length := by
  simp only [splice, List.length_append, List.length_take, List.length_drop]
  omega

theorem getElem?_splice {items data : List α} {offset : Nat}
    (inside : offset + data.length ≤ items.length) (index : Nat) :
    (splice items offset data)[index]? =
      if offset ≤ index ∧ index < offset + data.length then
        data[index - offset]?
      else items[index]? := by
  have headLength : (items.take offset).length = offset := by
    rw [List.length_take]
    omega
  by_cases before : index < offset
  · rw [if_neg (by omega), splice, List.append_assoc,
      List.getElem?_append_left (by omega), List.getElem?_take,
      if_pos before]
  · by_cases within : index < offset + data.length
    · rw [if_pos ⟨by omega, within⟩, splice, List.append_assoc,
        List.getElem?_append_right (by omega), headLength,
        List.getElem?_append_left (by omega)]
    · rw [if_neg (by omega), splice,
        List.getElem?_append_right (by rw [List.length_append]; omega),
        List.length_append, headLength, List.getElem?_drop]
      congr 1
      omega

@[simp]
theorem slice_full (items : List α) :
    slice items 0 items.length = items := by
  simp [slice]

@[simp]
theorem splice_nil (items : List α) (offset : Nat) :
    splice items offset [] = items := by
  simp [splice]

theorem slice_slice {items : List α} {offset len innerOffset innerLen : Nat}
    (inside : innerOffset + innerLen ≤ len) :
    slice (slice items offset len) innerOffset innerLen =
      slice items (offset + innerOffset) innerLen := by
  apply List.ext_getElem?
  intro index
  simp only [getElem?_slice]
  by_cases within : index < innerLen
  · rw [if_pos within, if_pos within, if_pos (by omega), Nat.add_assoc]
  · rw [if_neg within, if_neg within]

/-- Two adjacent slices join into one. -/
theorem slice_append_slice (items : List α) (offset first second : Nat) :
    slice items offset first ++ slice items (offset + first) second =
      slice items offset (first + second) := by
  simp only [slice, List.take_add, List.drop_drop]

/-- Reading back exactly the region just written. -/
theorem slice_splice_self {items data : List α} {offset : Nat}
    (inside : offset + data.length ≤ items.length) :
    slice (splice items offset data) offset data.length = data := by
  have headLength : (items.take offset).length = offset := by
    rw [List.length_take]
    omega
  simp only [slice, splice, List.append_assoc]
  rw [List.drop_append_of_le_length (by omega), List.drop_eq_nil_of_le (by omega),
    List.nil_append, List.take_left' rfl]

/-- A write leaves every region it does not meet as it was. -/
theorem slice_splice_disjoint {items data : List α} {offset start len : Nat}
    (inside : offset + data.length ≤ items.length)
    (disjoint : start + len ≤ offset ∨ offset + data.length ≤ start) :
    slice (splice items offset data) start len = slice items start len := by
  apply List.ext_getElem?
  intro index
  rw [getElem?_slice, getElem?_slice, getElem?_splice inside]
  by_cases within : index < len
  · rw [if_pos within, if_pos within, if_neg (by omega)]
  · rw [if_neg within, if_neg within]

/-- A write inside a region is the same write on the region alone. -/
theorem slice_splice_around {items data : List α} {offset start len : Nat}
    (inside : start + len ≤ items.length) (after : start ≤ offset)
    (before : offset + data.length ≤ start + len) :
    slice (splice items offset data) start len =
      splice (slice items start len) (offset - start) data := by
  have regionLength : (slice items start len).length = len := length_slice inside
  apply List.ext_getElem?
  intro index
  rw [getElem?_slice, getElem?_splice (by omega), getElem?_splice (by omega),
    getElem?_slice]
  by_cases within : index < len
  · rw [if_pos within, if_pos within]
    by_cases written : offset ≤ start + index ∧ start + index < offset + data.length
    · rw [if_pos written, if_pos (by omega)]
      congr 1
      omega
    · rw [if_neg written, if_neg (by omega)]
  · rw [if_neg within, if_neg within, if_neg (by omega)]

/-- Writing past the end of a head leaves the head alone. -/
theorem splice_append_right {head tail data : List α} {offset : Nat}
    (past : head.length ≤ offset) :
    splice (head ++ tail) offset data =
      head ++ splice tail (offset - head.length) data := by
  have dropped : offset + data.length =
      head.length + (offset - head.length + data.length) := by omega
  simp only [splice, List.take_append, List.take_of_length_le past]
  rw [dropped, List.drop_append]
  simp [List.append_assoc]

/-- Writing inside a head leaves the tail alone. -/
theorem splice_append_left {head tail data : List α} {offset : Nat}
    (inside : offset + data.length ≤ head.length) :
    splice (head ++ tail) offset data = splice head offset data ++ tail := by
  simp only [splice]
  rw [List.take_append_of_le_length (by omega),
    List.drop_append_of_le_length inside]
  simp [List.append_assoc]

/-- Writing between a head and a tail leaves both alone. -/
theorem splice_append_middle {head body tail data : List α} {offset : Nat}
    (inside : offset + data.length ≤ body.length) :
    splice (head ++ body ++ tail) (head.length + offset) data =
      head ++ splice body offset data ++ tail := by
  rw [List.append_assoc, splice_append_right (by omega), Nat.add_sub_cancel_left,
    splice_append_left inside, List.append_assoc]

theorem splice_zero (items data : List α) :
    splice items 0 data = data ++ items.drop data.length := by
  simp [splice]

theorem slice_append_left {head tail : List α} {offset len : Nat}
    (inside : offset + len ≤ head.length) :
    slice (head ++ tail) offset len = slice head offset len := by
  simp only [slice]
  rw [List.drop_append_of_le_length (by omega),
    List.take_append_of_le_length (by rw [List.length_drop]; omega)]

theorem slice_append_right {head tail : List α} {offset len : Nat}
    (past : head.length ≤ offset) :
    slice (head ++ tail) offset len = slice tail (offset - head.length) len := by
  simp only [slice, List.drop_append, List.drop_eq_nil_of_le past, List.nil_append]

theorem slice_append_middle {head body tail : List α} {offset len : Nat}
    (inside : offset + len ≤ body.length) :
    slice (head ++ body ++ tail) (head.length + offset) len = slice body offset len := by
  rw [List.append_assoc, slice_append_right (by omega), Nat.add_sub_cancel_left,
    slice_append_left inside]

/-- Two writes at one place: the later one, when it is at least as long. -/
theorem splice_splice_self {items first second : List α} {offset : Nat}
    (inside : offset + first.length ≤ items.length)
    (sameLength : second.length = first.length) :
    splice (splice items offset first) offset second =
      splice items offset second := by
  have spliced : (splice items offset first).length = items.length :=
    length_splice inside
  apply List.ext_getElem?
  intro index
  rw [getElem?_splice (by omega), getElem?_splice inside,
    getElem?_splice (by omega)]
  by_cases written : offset ≤ index ∧ index < offset + first.length
  · rw [if_pos (by omega), if_pos (by omega)]
  · rw [if_neg (by omega), if_neg written, if_neg (by omega)]

/-- Writing back what a region already holds changes nothing. -/
theorem splice_slice_self {items : List α} {offset len : Nat}
    (inside : offset + len ≤ items.length) :
    splice items offset (slice items offset len) = items := by
  have regionLength : (slice items offset len).length = len := length_slice inside
  apply List.ext_getElem?
  intro index
  rw [getElem?_splice (by omega), getElem?_slice, regionLength]
  by_cases written : offset ≤ index ∧ index < offset + len
  · rw [if_pos written, if_pos (by omega)]
    congr 1
    omega
  · rw [if_neg written]

/-! ## Tables of fixed-width blocks -/

/-- The first `count` blocks, end to end. -/
def blocks (block : Nat → List α) : Nat → List α
  | 0 => []
  | count + 1 => blocks block count ++ block count

theorem length_blocks {block : Nat → List α} {width count : Nat}
    (widths : ∀ index < count, (block index).length = width) :
    (blocks block count).length = count * width := by
  induction count with
  | zero => simp [blocks]
  | succ count ih =>
      rw [blocks, List.length_append, ih (fun index bound => widths index (by omega)),
        widths count (by omega), Nat.succ_mul]

theorem blocks_congr {first second : Nat → List α} {count : Nat}
    (same : ∀ index < count, first index = second index) :
    blocks first count = blocks second count := by
  induction count with
  | zero => rfl
  | succ count ih =>
      rw [blocks, blocks, ih (fun index bound => same index (by omega)),
        same count (by omega)]

/-- A region cut into blocks of one width. -/
theorem blocks_slices (items : List α) (start width count : Nat) :
    blocks (fun index => slice items (start + index * width) width) count =
      slice items start (count * width) := by
  induction count with
  | zero => simp [blocks, slice]
  | succ count ih => rw [blocks, ih, slice_append_slice, Nat.succ_mul]

/-- A region inside one block of a table. -/
theorem slice_blocks {block : Nat → List α} {width count index start len : Nat}
    (widths : ∀ index < count, (block index).length = width)
    (present : index < count) (inside : start + len ≤ width) :
    slice (blocks block count) (index * width + start) len =
      slice (block index) start len := by
  induction count with
  | zero => omega
  | succ count ih =>
      have prior : (blocks block count).length = count * width :=
        length_blocks fun index bound => widths index (by omega)
      rw [blocks]
      by_cases last : index = count
      · subst last
        rw [slice_append_right (by omega), prior, Nat.add_sub_cancel_left]
      · have earlier : index + 1 ≤ count := by omega
        have fits : (index + 1) * width ≤ count * width :=
          Nat.mul_le_mul_right width earlier
        rw [Nat.succ_mul] at fits
        rw [slice_append_left (by omega),
          ih (fun index bound => widths index (by omega)) (by omega)]

/-- Two tables are the same when their blocks are. -/
theorem blocks_inj {first second : Nat → List α} {width count : Nat}
    (firstWidths : ∀ index < count, (first index).length = width)
    (secondWidths : ∀ index < count, (second index).length = width) :
    blocks first count = blocks second count ↔ ∀ index < count, first index = second index := by
  refine ⟨fun same index bound => ?_, blocks_congr⟩
  have left := slice_blocks firstWidths bound (Nat.le_of_eq (Nat.zero_add width))
  have right := slice_blocks secondWidths bound (Nat.le_of_eq (Nat.zero_add width))
  rw [same, right] at left
  have fullFirst := slice_full (first index)
  have fullSecond := slice_full (second index)
  rw [firstWidths index bound] at fullFirst
  rw [secondWidths index bound] at fullSecond
  rw [← fullFirst, ← left, fullSecond]

/-- Writing inside one block of a table changes that block only. -/
theorem splice_blocks {block : Nat → List α} {width count index start : Nat}
    {data : List α} (widths : ∀ index < count, (block index).length = width)
    (present : index < count) (inside : start + data.length ≤ width) :
    splice (blocks block count) (index * width + start) data =
      blocks (Function.update block index (splice (block index) start data)) count := by
  induction count with
  | zero => omega
  | succ count ih =>
      have prior : (blocks block count).length = count * width :=
        length_blocks fun index bound => widths index (by omega)
      rw [blocks, blocks]
      by_cases last : index = count
      · subst last
        rw [splice_append_right (by omega), prior, Nat.add_sub_cancel_left,
          Function.update_self]
        congr 1
        apply blocks_congr
        intro other bound
        rw [Function.update_of_ne (by omega)]
      · have fits : (index + 1) * width ≤ count * width :=
          Nat.mul_le_mul_right width (by omega)
        rw [Nat.succ_mul] at fits
        rw [splice_append_left (by omega),
          ih (fun index bound => widths index (by omega)) (by omega),
          Function.update_of_ne (by omega : count ≠ index)]

theorem blocks_replicate (value : α) (width count : Nat) :
    blocks (fun _ => List.replicate width value) count =
      List.replicate (count * width) value := by
  induction count with
  | zero => simp [blocks]
  | succ count ih => rw [blocks, ih, Nat.succ_mul, List.replicate_add]

theorem slice_replicate (value : α) {count offset len : Nat}
    (inside : offset + len ≤ count) :
    slice (List.replicate count value) offset len = List.replicate len value := by
  simp only [slice, List.drop_replicate, List.take_replicate]
  congr 1
  omega

/-! ## Lists side by side -/

/-- An item of the first of two equally long lists is paired with one of the second. -/
theorem mem_zip_of_getElem? {α β : Type*} {first : List α} {second : List β}
    (lengths : second.length = first.length) {i : Nat} {item : α}
    (present : first[i]? = some item) :
    ∃ other, second[i]? = some other ∧ (item, other) ∈ first.zip second := by
  obtain ⟨bound, here⟩ := List.getElem?_eq_some_iff.mp present
  have inside : i < second.length := by omega
  refine ⟨second[i], List.getElem?_eq_getElem inside, ?_⟩
  rw [← here, ← List.getElem_zip (h := by rw [List.length_zip]; omega)]
  exact List.getElem_mem _

/-- Related lists stay related when related items are put at one place. -/
theorem forall₂_set {β : Type} {R : α → β → Prop} {first : List α} {second : List β}
    (matched : List.Forall₂ R first second) {item : α} {other : β} (same : R item other)
    (place : Nat) : List.Forall₂ R (first.set place item) (second.set place other) := by
  induction matched generalizing place with
  | nil => exact .nil
  | cons head tail ih =>
      cases place with
      | zero => exact .cons same tail
      | succ place => exact .cons head (ih place)

/-- Two matched lists have matching items at every place, or none at both. -/
theorem rel_getElem? {α β : Type*} {R : α → β → Prop} {first : List α} {second : List β}
    (matched : List.Forall₂ R first second) (place : Nat) :
    Option.Rel R first[place]? second[place]? := by
  induction matched generalizing place with
  | nil => exact .none
  | cons head _ ih =>
      cases place with
      | zero => exact .some head
      | succ place => exact ih place

/-- Two matched lists hold matching items at every place, or none past their ends. -/
theorem rel_getD {α β : Type*} {R : α → β → Prop} {first : List (Option α)}
    {second : List (Option β)} (matched : List.Forall₂ (Option.Rel R) first second) (place : Nat) :
    Option.Rel R (first.getD place none) (second.getD place none) := by
  induction matched generalizing place with
  | nil => exact .none
  | cons head _ ih =>
      cases place with
      | zero => exact head
      | succ place => exact ih place

/-- An item of the second of two matched lists has its match in the first. -/
theorem exists_of_mem_right {α β : Type*} {R : α → β → Prop} {first : List α} {second : List β}
    (matched : List.Forall₂ R first second) {other : β} (member : other ∈ second) :
    ∃ item ∈ first, R item other := by
  induction matched with
  | nil => cases member
  | cons related _ ih =>
      rcases List.mem_cons.mp member with rfl | further
      · exact ⟨_, List.mem_cons_self, related⟩
      · obtain ⟨item, there, found⟩ := ih further
        exact ⟨item, List.mem_cons_of_mem _ there, found⟩

/-- An item of the first of two matched lists has its match in the second. -/
theorem exists_of_mem_left {α β : Type*} {R : α → β → Prop} {first : List α} {second : List β}
    (matched : List.Forall₂ R first second) {item : α} (member : item ∈ first) :
    ∃ other ∈ second, R item other :=
  exists_of_mem_right (List.Forall₂.flip matched) member

/-! ## Changing items in place -/

/-- A list changed in several places, no place twice: each marked item is changed by its
own mark, and the others stay. -/
theorem getElem?_foldl_modify {α β : Type*} {change : β → α → α} {marks : List (Nat × β)}
    (distinct : (marks.map Prod.fst).Nodup) (items : List α) (k : Nat) :
    (∀ mark, (k, mark) ∈ marks →
      (marks.foldl (fun items mark => items.modify mark.1 (change mark.2)) items)[k]? =
        items[k]?.map (change mark)) ∧
      (k ∉ marks.map Prod.fst →
        (marks.foldl (fun items mark => items.modify mark.1 (change mark.2)) items)[k]? =
          items[k]?) := by
  induction marks generalizing items with
  | nil => simp
  | cons first marks ih =>
      rw [List.map_cons, List.nodup_cons] at distinct
      obtain ⟨marked, unmarked⟩ := ih distinct.2 (items.modify first.1 (change first.2))
      have elsewhere : first.1 ≠ k → (items.modify first.1 (change first.2))[k]? = items[k]? := by
        intro other
        rw [List.getElem?_modify, Option.map_eq_map]
        simp [other]
      constructor
      · intro mark member
        rw [List.foldl_cons]
        rcases List.mem_cons.mp member with same | later
        · subst same
          rw [unmarked distinct.1, List.getElem?_modify]
          simp
        · rw [marked mark later, elsewhere]
          rintro rfl
          exact distinct.1 (List.mem_map.mpr ⟨_, later, rfl⟩)
      · intro absent
        rw [List.map_cons, List.mem_cons, not_or] at absent
        rw [List.foldl_cons, unmarked absent.2, elsewhere (Ne.symm absent.1)]

end Slices
