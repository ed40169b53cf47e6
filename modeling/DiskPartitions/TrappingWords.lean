import DiskPartitions.CheckedWords
import DiskPartitions.Refusals

/-!
# Computations that trap on overflow

A program compiled with overflow checks stops when a word operation leaves its
range.  Such a computation ends in a value, in an error of its own, or in a trap.
It is `exact` when it never traps and agrees with the computation on wrapping words.
-/

namespace TrappingWords

open CheckedWords Refusals

variable {ε α β : Type}

/-- A computation that ends in a value or an error, unless a word operation
overflowed on the way. -/
abbrev Trapping (ε α : Type) := ExceptT ε Option α

/-- A word operation, whose overflow traps. -/
def word (value : Option α) : Trapping ε α := ExceptT.lift value

/-- What is read from `len` items at `offset`, whose overrun traps. -/
def within {ι : Type} (items : List ι) (offset len : Nat) (value : α) : Option α :=
  if offset + len ≤ items.length then some value else none

/-- A number that must fit a word. -/
def fit (value : Nat) : Option Nat :=
  if value < 2 ^ 64 then some value else none

/-- A computation that does not trap. -/
def exact (result : Except ε α) : Trapping ε α := ExceptT.mk (some result)

/-- A computation that trapped. -/
def trap : Trapping ε α := ExceptT.mk none

/-- Go on with what a computation ended in, be it an error; a trap is not caught. -/
def settle {ε' : Type} (first : Trapping ε α) (next : Except ε α → Trapping ε' β) :
    Trapping ε' β :=
  ExceptT.mk (first.run >>= fun result => (next result).run)

@[simp]
theorem settle_exact {ε' : Type} (result : Except ε α) (next : Except ε α → Trapping ε' β) :
    settle (exact result) next = next result := rfl

@[simp]
theorem settle_trap {ε' : Type} (next : Except ε α → Trapping ε' β) :
    settle (trap : Trapping ε α) next = trap := rfl

@[simp]
theorem trap_bind (next : α → Trapping ε β) : (trap >>= next) = trap := rfl

/-- A word operation that leaves its range is not got past. -/
theorem word_none_bind {operation : Option α} (outside : operation = none)
    (rest : α → Trapping ε β) : (word operation >>= rest) = trap := by
  rw [outside]
  rfl

theorem exact_ne_trap (result : Except ε α) : exact result ≠ trap := by
  intro same
  cases same

theorem exact_ok_bind (value : α) (rest : α → Trapping ε β) :
    (exact (.ok value) >>= rest) = rest value := rfl

theorem exact_error_bind (error : ε) (rest : α → Trapping ε β) :
    (exact (.error error) >>= rest) = exact (.error error) := rfl

/-- A word operation that stays in range is passed over. -/
theorem word_bind {operation : Option α} {value : α} (inRange : operation = some value)
    (rest : α → Trapping ε β) : (word operation >>= rest) = rest value := by
  rw [inRange]
  rfl

theorem fit_of_lt {value : Nat} (small : value < 2 ^ 64) : fit value = some value :=
  if_pos small

theorem fit_of_le {value : Nat} (large : 2 ^ 64 ≤ value) : fit value = none :=
  if_neg (Nat.not_lt.mpr large)

/-- A number that fits is passed over. -/
theorem fit_bind {value : Nat} (small : value < 2 ^ 64) (rest : Nat → Trapping ε β) :
    (word (fit value) >>= rest) = rest value :=
  word_bind (fit_of_lt small) rest

theorem within_of_le {ι : Type} {items : List ι} {offset len : Nat}
    (inside : offset + len ≤ items.length) (value : α) :
    within items offset len value = some value :=
  if_pos inside

/-- A read inside the buffer is passed over. -/
theorem within_bind {ι : Type} {items : List ι} {offset len : Nat} {value : α}
    (inside : offset + len ≤ items.length) (rest : α → Trapping ε β) :
    (word (within items offset len value) >>= rest) = rest value :=
  word_bind (within_of_le inside value) rest

/-- Steps that agree make computations that agree.  What comes later may rely on
the value the earlier step ended in. -/
theorem exact_bind {first : Trapping ε α} {plain : Except ε α} (head : first = exact plain)
    {rest : α → Trapping ε β} {plainRest : α → Except ε β}
    (tail : ∀ value, plain = .ok value → rest value = exact (plainRest value)) :
    (first >>= rest) = exact (plain >>= plainRest) := by
  subst head
  cases plain with
  | error error => rfl
  | ok value => exact tail value rfl

/-- A computation that does not trap can be split anywhere. -/
theorem exact_bind_eq (first : Except ε α) (rest : α → Except ε β) :
    exact (first >>= rest) = exact first >>= fun value => exact (rest value) :=
  (exact_bind rfl fun _ _ => rfl).symm

/-- A loop is exact when each of its rounds is. -/
theorem exact_mapM {items : List α} {step : α → Trapping ε β} {plain : α → Except ε β}
    (rounds : ∀ item ∈ items, step item = exact (plain item)) :
    items.mapM step = exact (items.mapM plain) := by
  induction items with
  | nil => rfl
  | cons item items ih =>
      rw [List.mapM_cons, List.mapM_cons]
      refine exact_bind (rounds item (by simp)) fun value _ => ?_
      refine exact_bind (ih fun other member => rounds other (by simp [member])) fun rest _ => ?_
      rfl

/-- A loop that carries a state is exact when each of its rounds is. -/
theorem exact_foldlM {σ : Type} {items : List α} {step : σ → α → Trapping ε σ}
    {plain : σ → α → Except ε σ}
    (rounds : ∀ state, ∀ item ∈ items, step state item = exact (plain state item)) (state : σ) :
    items.foldlM step state = exact (items.foldlM plain state) := by
  induction items generalizing state with
  | nil => rfl
  | cons item items ih =>
      rw [List.foldlM_cons, List.foldlM_cons]
      refine exact_bind (rounds state item (by simp)) fun next _ => ?_
      exact ih (fun state other member => rounds state other (by simp [member])) next

/-- A loop of operations that stay in range stays in range. -/
theorem mapM_eq_some {items : List α} {step : α → Option β} {plain : α → β}
    (rounds : ∀ item ∈ items, step item = some (plain item)) :
    items.mapM step = some (items.map plain) := by
  induction items with
  | nil => rfl
  | cons item items ih =>
      rw [List.mapM_cons, rounds item (by simp), ih fun other member => rounds other (by simp [member])]
      rfl

/-- A loop that carries a state stays in range as long as the state keeps an
invariant, which every round in range preserves. -/
theorem foldlM_eq_some {σ : Type} {items : List α} {step : σ → α → Option σ}
    {plain : σ → α → σ} {inv : σ → Prop}
    (rounds : ∀ item ∈ items, ∀ state, inv state →
      step state item = some (plain state item) ∧ inv (plain state item))
    {state : σ} (start : inv state) :
    items.foldlM step state = some (items.foldl plain state) := by
  induction items generalizing state with
  | nil => rfl
  | cons item items ih =>
      obtain ⟨inRange, kept⟩ := rounds item (by simp) state start
      rw [List.foldlM_cons, inRange, List.foldl_cons]
      exact ih (fun other member => rounds other (by simp [member])) kept

section Operations

variable {a b : UInt64}

theorem checkedAdd_of_lt (inRange : a.toNat + b.toNat < 2 ^ 64) :
    checkedAdd a b = some (a + b) :=
  checkedAdd_eq_some.mpr (toNat_add_of_lt inRange)

theorem checkedSub_of_le (inRange : b.toNat ≤ a.toNat) : checkedSub a b = some (a - b) := by
  rw [checkedSub_eq_some, toNat_sub_of_le inRange]
  omega

theorem checkedMul_of_lt (inRange : a.toNat * b.toNat < 2 ^ 64) :
    checkedMul a b = some (a * b) :=
  checkedMul_eq_some.mpr (toNat_mul_of_lt inRange)

end Operations

end TrappingWords
