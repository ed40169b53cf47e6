import DiskPartitions.Refusals

/-!
# Programs that differ in their errors only

Two fallible programs are alike when they succeed together and with the same value,
whatever errors they give otherwise.  A sequence of alike parts is alike, so programs
that differ only in what they say of a failure are compared part by part.
-/

namespace Refusals

variable {ε α β : Type}

/-- Both succeed with the same value, or neither succeeds. -/
def Alike (first second : Except ε α) : Prop :=
  first.toOption = second.toOption

namespace Alike

theorem refl (program : Except ε α) : Alike program program := rfl

theorem symm {first second : Except ε α} (alike : Alike first second) : Alike second first :=
  Eq.symm alike

theorem trans {first second third : Except ε α} (left : Alike first second)
    (right : Alike second third) : Alike first third :=
  Eq.trans left right

theorem error (first second : ε) : Alike (.error first : Except ε α) (.error second) := rfl

/-- A pair of alike programs either succeeds with one value or fails twice. -/
theorem cases {first second : Except ε α} (alike : Alike first second) :
    (∃ value, first = .ok value ∧ second = .ok value) ∨
      ∃ here there, first = .error here ∧ second = .error there := by
  cases first with
  | ok value =>
      cases second with
      | ok other =>
          cases alike
          exact .inl ⟨value, rfl, rfl⟩
      | error there => cases alike
  | error here =>
      cases second with
      | ok other => cases alike
      | error there => exact .inr ⟨here, there, rfl, rfl⟩

theorem eq_ok {first second : Except ε α} (alike : Alike first second) {value : α}
    (succeeded : first = .ok value) : second = .ok value := by
  rcases alike.cases with ⟨other, here, there⟩ | ⟨_, _, here, _⟩
  · rw [succeeded] at here
    cases here
    exact there
  · rw [succeeded] at here
    cases here

/-- Sequences of alike parts are alike. -/
theorem bind {first second : Except ε α} {next other : α → Except ε β}
    (alike : Alike first second) (rest : ∀ value, Alike (next value) (other value)) :
    Alike (first >>= next) (second >>= other) := by
  rcases alike.cases with ⟨value, rfl, rfl⟩ | ⟨_, _, rfl, rfl⟩
  · exact rest value
  · rfl

theorem refuseIf (bad : Prop) [Decidable bad] (here there : ε) :
    Alike (refuseIf bad here) (Refusals.refuseIf bad there) := by
  unfold Refusals.refuseIf
  split
  next => rfl
  next => rfl

theorem orRefuse (value : Option α) (here there : ε) :
    Alike (orRefuse value here) (Refusals.orRefuse value there) := by
  cases value with
  | none => rfl
  | some value => rfl

theorem ite {bad : Prop} [Decidable bad] {first second third fourth : Except ε α}
    (holds : bad → Alike first third) (fails : ¬ bad → Alike second fourth) :
    Alike (if bad then first else second) (if bad then third else fourth) := by
  split
  next here => exact holds here
  next here => exact fails here

/-- Alike steps over the same items are alike. -/
theorem mapM {check other : α → Except ε β} {items : List α}
    (alike : ∀ item ∈ items, Alike (check item) (other item)) :
    Alike (items.mapM check) (items.mapM other) := by
  induction items with
  | nil => rfl
  | cons item items ih =>
      rw [List.mapM_cons, List.mapM_cons]
      refine (alike item (by simp)).bind fun first => ?_
      exact (ih fun item member => alike item (by simp [member])).bind fun rest => refl _

end Alike

/-- Both succeed with related values, or both stop with the same error. -/
inductive Matched {γ : Type} (related : α → γ → Prop) : Except ε α → Except ε γ → Prop
  | ok {value : α} {other : γ} (same : related value other) :
      Matched related (.ok value) (.ok other)
  | error (failure : ε) : Matched related (.error failure) (.error failure)

namespace Matched

variable {γ δ : Type} {related : α → γ → Prop}

theorem refl (program : Except ε α) : Matched Eq program program := by
  cases program with
  | error failure => exact .error failure
  | ok value => exact .ok rfl

/-- Sequences of matched parts are matched. -/
theorem bind {after : β → δ → Prop} {first : Except ε α} {second : Except ε γ}
    {next : α → Except ε β} {other : γ → Except ε δ} (matched : Matched related first second)
    (rest : ∀ value other', related value other' → Matched after (next value) (other other')) :
    Matched after (first >>= next) (second >>= other) := by
  cases matched with
  | ok same => exact rest _ _ same
  | error failure => exact .error failure

/-- A part both make is made once. -/
theorem bindSame {after : β → δ → Prop} {next : α → Except ε β} {other : α → Except ε δ}
    (first : Except ε α) (rest : ∀ value, Matched after (next value) (other value)) :
    Matched after (first >>= next) (first >>= other) :=
  (refl first).bind fun value _ same => same ▸ rest value

theorem imp {weaker : α → γ → Prop} {first : Except ε α} {second : Except ε γ}
    (matched : Matched related first second)
    (weaken : ∀ value other, related value other → weaker value other) :
    Matched weaker first second := by
  cases matched with
  | ok same => exact .ok (weaken _ _ same)
  | error failure => exact .error failure

/-- The first program's value is the one it succeeds with. -/
theorem withOk {first : Except ε α} {second : Except ε γ} (matched : Matched related first second) :
    Matched (fun value other => related value other ∧ first = .ok value) first second := by
  cases matched with
  | ok same => exact .ok ⟨same, rfl⟩
  | error failure => exact .error failure

theorem ite {bad : Prop} [Decidable bad] {first second : Except ε α} {third fourth : Except ε γ}
    (holds : bad → Matched related first third) (fails : ¬ bad → Matched related second fourth) :
    Matched related (if bad then first else second) (if bad then third else fourth) := by
  split
  next here => exact holds here
  next here => exact fails here

/-- Matched steps over the same items are matched, item by item. -/
theorem mapM {check : α → Except ε β} {other : α → Except ε δ} {after : β → δ → Prop}
    {items : List α} (matched : ∀ item ∈ items, Matched after (check item) (other item)) :
    Matched (List.Forall₂ after) (items.mapM check) (items.mapM other) := by
  induction items with
  | nil => exact .ok .nil
  | cons item items ih =>
      rw [List.mapM_cons, List.mapM_cons]
      refine (matched item (by simp)).bind fun first firstOther same => ?_
      refine (ih fun item member => matched item (by simp [member])).bind fun rest restOther all => ?_
      exact .ok (.cons same all)

end Matched

/-- The second program goes the way of the first, unless the first stops with an error that
is not caught. -/
def Follows {γ : Type} (caught : ε → Prop) (related : α → γ → Prop) (first : Except ε α)
    (second : Except ε γ) : Prop :=
  (∃ error, first = .error error ∧ ¬ caught error) ∨ Matched related first second

namespace Follows

variable {γ δ : Type} {caught : ε → Prop} {related : α → γ → Prop}

theorem of_matched {first : Except ε α} {second : Except ε γ}
    (matched : Matched related first second) : Follows caught related first second :=
  .inr matched

theorem of_error {first : Except ε α} {second : Except ε γ} {error : ε}
    (failed : first = .error error) (uncaught : ¬ caught error) :
    Follows caught related first second :=
  .inl ⟨error, failed, uncaught⟩

/-- A first program that succeeds is followed to a related value. -/
theorem exists_of_ok {first : Except ε α} {second : Except ε γ}
    (follows : Follows caught related first second) {value : α} (succeeded : first = .ok value) :
    ∃ other, second = .ok other ∧ related value other := by
  rcases follows with ⟨error, failed, -⟩ | matched
  · rw [succeeded] at failed
    cases failed
  · rw [succeeded] at matched
    cases matched with
    | ok same => exact ⟨_, rfl, same⟩

/-- Sequences of parts that follow one another do. -/
theorem bind {after : β → δ → Prop} {first : Except ε α} {second : Except ε γ}
    {next : α → Except ε β} {other : γ → Except ε δ} (follows : Follows caught related first second)
    (rest : ∀ value other', related value other' →
      Follows caught after (next value) (other other')) :
    Follows caught after (first >>= next) (second >>= other) := by
  rcases follows with ⟨error, rfl, uncaught⟩ | matched
  · exact .inl ⟨error, rfl, uncaught⟩
  · cases matched with
    | ok same => exact rest _ _ same
    | error failure => exact .inr (.error failure)

/-- A part both make is made once. -/
theorem bindSame {after : β → δ → Prop} {next : α → Except ε β} {other : α → Except ε δ}
    (first : Except ε α) (rest : ∀ value, Follows caught after (next value) (other value)) :
    Follows caught after (first >>= next) (first >>= other) :=
  (of_matched (.refl first)).bind fun value _ same => same ▸ rest value

theorem ite {bad : Prop} [Decidable bad] {first second : Except ε α} {third fourth : Except ε γ}
    (holds : bad → Follows caught related first third)
    (fails : ¬ bad → Follows caught related second fourth) :
    Follows caught related (if bad then first else second) (if bad then third else fourth) := by
  split
  next here => exact holds here
  next here => exact fails here

end Follows

end Refusals
