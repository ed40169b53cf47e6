import DiskPartitions.BufferedReads

/-!
# Programs that withhold an answer

A fallible program may fail where another succeeds and still never contradict it: whatever it
answers, the other answers too.  Sequences of such programs are again such programs, and so is
a read made in pieces.  A program that catches a failure and asks elsewhere needs more, that
all it may ask agree.  Two programs of which either may fail can still never answer differently.
-/

namespace WithheldReads

open Slices Refusals BufferedReads

variable {ε δ α β : Type}

/-- Whatever the first program answers, the second answers too. -/
def Below (first : Except ε α) (second : Except δ α) : Prop :=
  ∀ value, first = .ok value → second = .ok value

/-- Whatever the program answers is the value. -/
def Tells (program : Except ε α) (value : α) : Prop :=
  ∀ answer, program = .ok answer → answer = value

theorem tells_ok {answer value : α} (same : answer = value) :
    Tells (.ok answer : Except ε α) value := by
  intro other answered
  cases answered
  exact same

namespace Below

/-- What withholds from a program that gives the value answers nothing else. -/
theorem tells {first : Except ε α} {second : Except δ α} (below : Below first second) {value : α}
    (answers : second = .ok value) : Tells first value := by
  intro answer answered
  have same := below answer answered
  rw [answers] at same
  cases same
  rfl

theorem refl (program : Except ε α) : Below program program := fun _ answered => answered

theorem trans {γ : Type} {first : Except ε α} {second : Except δ α} {third : Except γ α}
    (left : Below first second) (right : Below second third) : Below first third :=
  fun value answered => right value (left value answered)

theorem error (failure : ε) (program : Except δ α) : Below (.error failure) program := by
  intro value answered
  cases answered

theorem ok {value : α} {program : Except δ α} (answers : program = .ok value) :
    Below (.ok value : Except ε α) program := by
  intro other answered
  cases answered
  exact answers

/-- Sequences of withholding parts withhold. -/
theorem bind {first : Except ε α} {second : Except δ α} {next : α → Except ε β}
    {other : α → Except δ β} (below : Below first second)
    (rest : ∀ value, first = .ok value → Below (next value) (other value)) :
    Below (first >>= next) (second >>= other) := by
  intro result answered
  obtain ⟨value, found, answered⟩ := bind_eq_ok.mp answered
  rw [below value found, ok_bind]
  exact rest value found result answered

theorem mapError {γ ζ : Type} {first : Except ε α} {second : Except δ α} (below : Below first second)
    (describe : ε → γ) (otherwise : δ → ζ) :
    Below (first.mapError describe) (second.mapError otherwise) := by
  intro value answered
  cases first with
  | error failure => cases answered
  | ok found =>
      cases answered
      rw [below value rfl]
      rfl

theorem ite {bad : Prop} [Decidable bad] {first third : Except ε α} {second fourth : Except δ α}
    (holds : bad → Below first second) (fails : ¬ bad → Below third fourth) :
    Below (if bad then first else third) (if bad then second else fourth) := by
  split
  next here => exact holds here
  next here => exact fails here

/-- Steps that withhold, one after another. -/
theorem foldlM {σ γ : Type} {step : σ → α → Except ε σ} {other : σ → γ → Except δ σ}
    {items : List α} {others : List γ}
    (below : List.Forall₂ (fun item again => ∀ state, Below (step state item) (other state again))
      items others) (start : σ) : Below (items.foldlM step start) (others.foldlM other start) := by
  induction below generalizing start with
  | nil => exact ok rfl
  | cons head _ ih =>
      rw [List.foldlM_cons, List.foldlM_cons]
      exact (head start).bind fun next _ => ih next

end Below

/-- Whatever the first program answers, the second answers something related. -/
def BelowBy {γ : Type} (related : α → γ → Prop) (first : Except ε α) (second : Except δ γ) : Prop :=
  ∀ value, first = .ok value → ∃ other, second = .ok other ∧ related value other

namespace BelowBy

variable {γ ζ : Type} {related : α → γ → Prop}

theorem of_below {first : Except ε α} {second : Except δ α} (below : Below first second) :
    BelowBy Eq first second := fun value answered => ⟨value, below value answered, rfl⟩

theorem ok {value : α} {other : γ} (same : related value other) :
    BelowBy related (.ok value : Except ε α) (.ok other : Except δ γ) := by
  intro found answered
  cases answered
  exact ⟨other, rfl, same⟩

theorem error (failure : ε) (second : Except δ γ) : BelowBy related (.error failure) second := by
  intro value answered
  cases answered

theorem bind {after : β → ζ → Prop} {first : Except ε α} {second : Except δ γ}
    {next : α → Except ε β} {other : γ → Except δ ζ} (below : BelowBy related first second)
    (rest : ∀ value twin, related value twin → BelowBy after (next value) (other twin)) :
    BelowBy after (first >>= next) (second >>= other) := by
  intro result answered
  obtain ⟨value, found, answered⟩ := bind_eq_ok.mp answered
  obtain ⟨twin, again, same⟩ := below value found
  rw [again, ok_bind]
  exact rest value twin same result answered

theorem ite {bad : Prop} [Decidable bad] {first third : Except ε α} {second fourth : Except δ γ}
    (holds : bad → BelowBy related first second) (fails : ¬ bad → BelowBy related third fourth) :
    BelowBy related (if bad then first else third) (if bad then second else fourth) := by
  split
  next here => exact holds here
  next here => exact fails here

/-- A check both make is made once. -/
theorem bindSame {after : β → ζ → Prop} {next : α → Except ε β} {other : α → Except ε ζ}
    (first : Except ε α) (rest : ∀ value, BelowBy after (next value) (other value)) :
    BelowBy after (first >>= next) (first >>= other) :=
  (of_below (.refl first)).bind fun value _ same => same ▸ rest value

/-- Items taken one by one, related and related to what becomes of them. -/
theorem mapM {items : List α} {others : List γ} {check : α → Except ε β} {again : γ → Except δ ζ}
    {after : β → ζ → Prop} (matched : List.Forall₂ related items others)
    (below : ∀ item other, related item other → BelowBy after (check item) (again other)) :
    BelowBy (List.Forall₂ after) (items.mapM check) (others.mapM again) := by
  induction matched with
  | nil => exact ok .nil
  | cons same _ ih =>
      rw [List.mapM_cons, List.mapM_cons]
      refine (below _ _ same).bind fun value twin own => ?_
      exact ih.bind fun rest twins all => ok (.cons own all)

/-- Related steps, one after another, from related states. -/
theorem foldlM {σ τ : Type} {after : σ → τ → Prop} {items : List α} {others : List γ}
    {step : σ → α → Except ε σ} {again : τ → γ → Except δ τ}
    (matched : List.Forall₂ related items others)
    (below : ∀ item other, related item other → ∀ state twin, after state twin →
      BelowBy after (step state item) (again twin other))
    {start : σ} {origin : τ} (starts : after start origin) :
    BelowBy after (items.foldlM step start) (others.foldlM again origin) := by
  induction matched generalizing start origin with
  | nil => exact ok starts
  | cons same _ ih =>
      rw [List.foldlM_cons, List.foldlM_cons]
      exact (below _ _ same _ _ starts).bind fun state twin own => ih own

end BelowBy

/-- A read in pieces withholds what its pieces withhold. -/
theorem readPieces_below {piece : Nat → Nat → Except ε (List α)}
    {other : Nat → Nat → Except δ (List α)}
    (below : ∀ position left, Below (piece position left) (other position left))
    (fuel position left : Nat) :
    Below (readPieces piece fuel position left) (readPieces other fuel position left) := by
  induction fuel generalizing position left with
  | zero => exact .ok rfl
  | succ fuel ih =>
      rw [readPieces, readPieces]
      refine .ite (fun _ => .ok rfl) fun _ => ?_
      refine (below position left).bind fun items _ => ?_
      exact (ih _ _).bind fun rest _ => .ok rfl

/-- So is one whose pieces withhold as long as they stay before `finish`. -/
theorem readPieces_below_before {piece : Nat → Nat → Except ε (List α)}
    {other : Nat → Nat → Except δ (List α)} {finish : Nat}
    (bounded : ∀ position left items, 0 < left → piece position left = .ok items →
      items.length ≤ left)
    (below : ∀ position left, position + left ≤ finish →
      Below (piece position left) (other position left))
    {fuel position left : Nat} (before : position + left ≤ finish) :
    Below (readPieces piece fuel position left) (readPieces other fuel position left) := by
  induction fuel generalizing position left with
  | zero => exact .ok rfl
  | succ fuel ih =>
      rw [readPieces, readPieces]
      refine .ite (fun _ => .ok rfl) fun some_left => ?_
      refine (below position left before).bind fun items answered => ?_
      have short := bounded position left items (Nat.pos_of_ne_zero some_left) answered
      exact (ih (by omega)).bind fun rest _ => .ok rfl

/-- Pieces that answer nothing but the store's items join into a read that answers nothing
else. -/
theorem readPieces_tells {piece : Nat → Nat → Except ε (List α)} {store : List α} {finish : Nat}
    (stored : finish ≤ store.length)
    (pieces : ∀ position left, 0 < left → position + left = finish →
      ∃ taken, 0 < taken ∧ taken ≤ left ∧
        Tells (piece position left) (slice store position taken))
    {fuel position left : Nat} (enough : left ≤ fuel) (ends : position + left = finish) :
    Tells (readPieces piece fuel position left) (slice store position left) := by
  induction fuel generalizing position left with
  | zero =>
      obtain rfl : left = 0 := by omega
      refine tells_ok ?_
      simp [slice]
  | succ fuel ih =>
      rw [readPieces]
      by_cases none : left = 0
      · rw [if_pos none, none]
        refine tells_ok ?_
        simp [slice]
      · rw [if_neg none]
        obtain ⟨taken, positive, bounded, tells⟩ :=
          pieces position left (Nat.pos_of_ne_zero none) ends
        intro bytes answered
        obtain ⟨items, read, answered⟩ := bind_eq_ok.mp answered
        cases tells items read
        have inside : position + taken ≤ store.length := by omega
        rw [length_slice inside] at answered
        obtain ⟨rest, later, answered⟩ := bind_eq_ok.mp answered
        have tail := @ih (position + taken) (left - taken) (by omega) (by omega) rest later
        cases answered
        rw [tail, slice_append_slice, Nat.add_sub_cancel' bounded]

/-- A read in pieces answers when the piece at each place it can go on from does.  A piece is as
long as what is left, or ends where the next can start. -/
theorem readPieces_answers {piece : Nat → Nat → Except ε (List α)} (starts : Nat → Prop)
    {finish : Nat}
    (pieces : ∀ position left, starts position → 0 < left → position + left = finish →
      ∃ items, piece position left = .ok items ∧
        (items.length = left ∨ starts (position + items.length) ∧ items.length < left))
    {fuel position left : Nat} (start : starts position) (ends : position + left = finish) :
    ∃ items, readPieces piece fuel position left = .ok items := by
  induction fuel generalizing position left with
  | zero => exact ⟨[], rfl⟩
  | succ fuel ih =>
      rw [readPieces]
      by_cases none : left = 0
      · exact ⟨[], if_pos none⟩
      · obtain ⟨items, read, further⟩ := pieces position left start (Nat.pos_of_ne_zero none) ends
        rw [if_neg none, read, ok_bind]
        rcases further with whole | ⟨next, short⟩
        · rw [whole, Nat.sub_self]
          cases fuel with
          | zero => exact ⟨items ++ [], rfl⟩
          | succ fuel =>
              rw [readPieces, if_pos rfl]
              exact ⟨items ++ [], rfl⟩
        · obtain ⟨rest, later⟩ := ih next (by omega : _ + (left - items.length) = finish)
          rw [later]
          exact ⟨items ++ rest, rfl⟩

/-- The two programs never answer differently. -/
def NeverDiffer (first : Except ε α) (second : Except δ α) : Prop :=
  ∀ value other, first = .ok value → second = .ok other → value = other

namespace NeverDiffer

theorem refl (program : Except ε α) : NeverDiffer program program := by
  intro value other answered again
  rw [answered] at again
  exact Except.ok.inj again

/-- Sequences of parts that never answer differently never do. -/
theorem bind {first : Except ε α} {second : Except δ α} {next : α → Except ε β}
    {other : α → Except δ β} (agree : NeverDiffer first second)
    (rest : ∀ value, NeverDiffer (next value) (other value)) :
    NeverDiffer (first >>= next) (second >>= other) := by
  intro result found answered again
  obtain ⟨value, read, answered⟩ := bind_eq_ok.mp answered
  obtain ⟨twin, reread, again⟩ := bind_eq_ok.mp again
  cases agree value twin read reread
  exact rest value result found answered again

theorem mapError {γ ζ : Type} {first : Except ε α} {second : Except δ α}
    (agree : NeverDiffer first second) (describe : ε → γ) (otherwise : δ → ζ) :
    NeverDiffer (first.mapError describe) (second.mapError otherwise) :=
  fun value other answered again =>
    agree value other (mapError_eq_ok.mp answered) (mapError_eq_ok.mp again)

end NeverDiffer

/-- Reads in pieces that never answer differently never do. -/
theorem readPieces_neverDiffer {piece : Nat → Nat → Except ε (List α)}
    {other : Nat → Nat → Except δ (List α)}
    (agree : ∀ position left, NeverDiffer (piece position left) (other position left))
    (fuel position left : Nat) :
    NeverDiffer (readPieces piece fuel position left) (readPieces other fuel position left) := by
  induction fuel generalizing position left with
  | zero =>
      rintro _ _ ⟨⟩ ⟨⟩
      rfl
  | succ fuel ih =>
      rw [readPieces, readPieces]
      by_cases done : left = 0
      · rw [if_pos done, if_pos done]
        rintro _ _ ⟨⟩ ⟨⟩
        rfl
      · rw [if_neg done, if_neg done]
        refine (agree position left).bind fun items => ?_
        refine (ih _ _).bind fun rest => ?_
        rintro _ _ ⟨⟩ ⟨⟩
        rfl

end WithheldReads
