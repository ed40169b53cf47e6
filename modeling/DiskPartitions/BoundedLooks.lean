import DiskPartitions.ListSlices
import DiskPartitions.TrappingWords

/-!
# Looks at a buffer

A look reads parts of a buffer and answers from what it read; one that indexes past the end of
the buffer has no answer.  Looks that test the length of the buffer first always answer, and
those that stay within a window answer the same on the window alone.
-/

namespace BoundedLooks

open Slices TrappingWords

variable {α β γ : Type}

/-- A computation that reads a buffer, and that has no answer when it reads past its end. -/
abbrev Look (α β : Type) := ReaderT (List α) Option β

/-- The items at a place. -/
def bytesAt (offset len : Nat) : Look α (List α) :=
  fun buf => within buf offset len (slice buf offset len)

/-- Look at a buffer of at least so many items; a shorter one gets the other answer. -/
def ifLong (least : Nat) (look other : Look α β) : Look α β :=
  fun buf => if least ≤ buf.length then look buf else other buf

/-- Whether a buffer of at least so many items has one of the tags at a place. -/
def tagAt [DecidableEq α] (least offset len : Nat) (tags : List (List α)) : Look α Bool :=
  ifLong least (do return decide ((← bytesAt offset len) ∈ tags)) (pure false)

/-- Whether one of several looks says yes, asked in order. -/
def anyOf : List (Look α Bool) → Look α Bool
  | [] => pure false
  | look :: looks => do if ← look then return true else anyOf looks

/-- The answer of the first look that has one, asked in order. -/
def firstOf : List (Look α (Option β)) → Look α (Option β)
  | [] => pure none
  | look :: looks => do
      match ← look with
      | some answer => return some answer
      | none => firstOf looks

/-- A look answers on every buffer of at least `least` items, and answers the same on the first
`window` of them. -/
def Bounded (least window : Nat) (look : Look α β) : Prop :=
  ∀ buf, least ≤ buf.length →
    ∃ answer, look buf = some answer ∧ look (buf.take window) = some answer

variable {least window : Nat}

theorem Bounded.pure (answer : β) : Bounded least window (pure answer : Look α β) :=
  fun _ _ => ⟨answer, rfl, rfl⟩

/-- A look may be followed by one that its answer decides. -/
theorem Bounded.bind {first : Look α β} {next : β → Look α γ}
    (head : Bounded least window first) (tail : ∀ answer, Bounded least window (next answer)) :
    Bounded least window (first >>= next) := by
  intro buf long
  obtain ⟨answer, whole, cut⟩ := head buf long
  obtain ⟨last, wholeLast, cutLast⟩ := tail answer buf long
  refine ⟨last, ?_, ?_⟩
  · change (first buf >>= fun found => next found buf) = some last
    rw [whole]
    exact wholeLast
  · change (first (buf.take window) >>= fun found => next found (buf.take window)) = some last
    rw [cut]
    exact cutLast

theorem Bounded.ite {condition : Prop} [Decidable condition] {first second : Look α β}
    (yes : Bounded least window first) (no : Bounded least window second) :
    Bounded least window (if condition then first else second) := by
  split
  next => exact yes
  next => exact no

/-- A look needs no more items than it did. -/
theorem Bounded.mono {fewer : Nat} {look : Look α β} (bounded : Bounded fewer window look)
    (more : fewer ≤ least) : Bounded least window look :=
  fun buf long => bounded buf (Nat.le_trans more long)

/-- Reading stays inside a buffer that is long enough. -/
theorem bounded_bytesAt {offset len : Nat} (inside : offset + len ≤ least)
    (small : least ≤ window) : Bounded least window (bytesAt offset len : Look α (List α)) := by
  intro buf long
  have cut : (buf.take window).length = min window buf.length := List.length_take
  refine ⟨slice buf offset len, within_of_le (by omega) _, ?_⟩
  unfold bytesAt
  rw [within_of_le (by omega), slice, slice, List.drop_take, List.take_take,
    Nat.min_eq_left (by omega)]

/-- Whether a buffer is long enough is the same for the window. -/
theorem bounded_ifLong {needed : Nat} {look other : Look α β} (small : needed ≤ window)
    (long : Bounded (max least needed) window look) (short : Bounded least window other) :
    Bounded least window (ifLong needed look other) := by
  intro buf enough
  unfold ifLong
  by_cases reaches : needed ≤ buf.length
  · rw [if_pos reaches, if_pos (by rw [List.length_take]; omega)]
    exact long buf (by omega)
  · rw [if_neg reaches, if_neg (by rw [List.length_take]; omega)]
    exact short buf enough

theorem bounded_tagAt [DecidableEq α] {needed offset len : Nat} {tags : List (List α)}
    (inside : offset + len ≤ needed) (small : needed ≤ window) :
    Bounded 0 window (tagAt needed offset len tags) := by
  refine bounded_ifLong small ?_ (.pure false)
  rw [Nat.zero_max]
  exact (bounded_bytesAt inside small).bind fun _ => .pure _

theorem bounded_anyOf {looks : List (Look α Bool)} (each : ∀ look ∈ looks, Bounded least window look) :
    Bounded least window (anyOf looks) := by
  induction looks with
  | nil => exact .pure false
  | cons look looks ih =>
      refine (each look (by simp)).bind fun found => .ite (.pure true) ?_
      exact ih fun other member => each other (by simp [member])

/-- A chain of bounded looks is bounded, whichever of them answers. -/
theorem bounded_firstOf {looks : List (Look α (Option β))}
    (each : ∀ look ∈ looks, Bounded least window look) :
    Bounded least window (firstOf looks) := by
  induction looks with
  | nil => exact .pure none
  | cons look looks ih =>
      refine (each look (by simp)).bind fun found => ?_
      cases found with
      | some answer => exact .pure (some answer)
      | none => exact ih fun other member => each other (by simp [member])

end BoundedLooks
