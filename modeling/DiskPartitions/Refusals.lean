import Mathlib.Data.List.Forall2

/-!
# Checks that refuse

A fallible program is a sequence of checks, each of which stops the run with an
error or lets it go on.  These are the two shapes a check has, a condition that
must not hold and an optional value that must be there, with the rules that
read a successful run back as the conditions it passed.
-/

namespace Refusals

variable {ε α β : Type}

/-- Stop with `error` when `bad` holds. -/
def refuseIf (bad : Prop) [Decidable bad] (error : ε) : Except ε Unit :=
  if bad then .error error else .ok ()

/-- The value, or stop with `error` when there is none. -/
def orRefuse (value : Option α) (error : ε) : Except ε α :=
  match value with
  | some value => .ok value
  | none => .error error

/-- A sequence succeeds when both of its parts do. -/
theorem bind_eq_ok {first : Except ε α} {second : α → Except ε β} {result : β} :
    (first >>= second) = .ok result ↔
      ∃ value, first = .ok value ∧ second value = .ok result := by
  cases first with
  | error error =>
      constructor
      · intro failed
        cases failed
      · rintro ⟨_, failed, _⟩
        cases failed
  | ok value =>
      constructor
      · intro succeeded
        exact ⟨value, rfl, succeeded⟩
      · rintro ⟨_, same, succeeded⟩
        cases same
        exact succeeded

theorem ok_bind (value : α) (second : α → Except ε β) :
    ((.ok value : Except ε α) >>= second) = second value := rfl

theorem error_bind (error : ε) (second : α → Except ε β) :
    ((.error error : Except ε α) >>= second) = .error error := rfl

theorem pure_eq_ok (value : α) : (pure value : Except ε α) = .ok value := rfl

/-- Another error makes no difference to a success. -/
theorem mapError_eq_ok {δ : Type} {program : Except ε α} {describe : ε → δ} {value : α} :
    program.mapError describe = .ok value ↔ program = .ok value := by
  cases program with
  | error error =>
      constructor
      · intro succeeded
        cases succeeded
      · intro succeeded
        cases succeeded
  | ok found =>
      constructor
      · intro succeeded
        cases succeeded
        rfl
      · intro succeeded
        cases succeeded
        rfl

/-- A sequence whose second part cannot fail succeeds when its first part does. -/
theorem exists_bind_pure_eq_ok {first : Except ε α} {f : α → β} :
    (∃ result, (first >>= fun value => pure (f value)) = .ok result) ↔
      ∃ value, first = .ok value := by
  constructor
  · rintro ⟨result, succeeded⟩
    obtain ⟨value, found, -⟩ := bind_eq_ok.mp succeeded
    exact ⟨value, found⟩
  · rintro ⟨value, found⟩
    exact ⟨f value, by rw [found, ok_bind, pure_eq_ok]⟩

@[simp]
theorem refuseIf_eq_ok {bad : Prop} [Decidable bad] {error : ε} {passed : Unit} :
    refuseIf bad error = .ok passed ↔ ¬ bad := by
  unfold refuseIf
  split
  next holds => simp [holds]
  next fails => simp [fails]

theorem refuseIf_of_not {bad : Prop} [Decidable bad] (fails : ¬ bad) (error : ε) :
    refuseIf bad error = .ok () :=
  if_neg fails

/-- A check followed by more succeeds when it does not fire and the rest succeeds. -/
theorem refuseIf_bind_eq_ok {bad : Prop} [Decidable bad] {error : ε}
    {rest : Unit → Except ε β} {result : β} :
    (refuseIf bad error >>= rest) = .ok result ↔ ¬ bad ∧ rest () = .ok result := by
  rw [bind_eq_ok]
  constructor
  · rintro ⟨_, passed, succeeded⟩
    exact ⟨refuseIf_eq_ok.mp passed, succeeded⟩
  · rintro ⟨fails, succeeded⟩
    exact ⟨(), refuseIf_of_not fails error, succeeded⟩

@[simp]
theorem orRefuse_eq_ok {value : Option α} {error : ε} {found : α} :
    orRefuse value error = .ok found ↔ value = some found := by
  cases value with
  | none => simp [orRefuse]
  | some value => simp [orRefuse]

/-- A check made of every item of a list. -/
theorem mapM_eq_ok {check : α → Except ε β} {items : List α} {results : List β}
    (accepted : items.mapM check = .ok results) :
    List.Forall₂ (fun item result => check item = .ok result) items results := by
  induction items generalizing results with
  | nil =>
      cases accepted
      exact .nil
  | cons item items ih =>
      rw [List.mapM_cons] at accepted
      obtain ⟨first, head, accepted⟩ := bind_eq_ok.mp accepted
      obtain ⟨rest, tail, accepted⟩ := bind_eq_ok.mp accepted
      cases accepted
      exact .cons head (ih tail)

/-- A check that gives every item its result gives the list of them. -/
theorem mapM_of_forall₂ {check : α → Except ε β} {items : List α} {results : List β}
    (passes : List.Forall₂ (fun item result => check item = .ok result) items results) :
    items.mapM check = .ok results := by
  induction passes with
  | nil => rfl
  | cons head tail ih =>
      rw [List.mapM_cons, head, ok_bind, ih, ok_bind]
      rfl

theorem mapM_of_forall {check : α → Except ε β} {value : α → β} {items : List α}
    (passes : ∀ item ∈ items, check item = .ok (value item)) :
    items.mapM check = .ok (items.map value) := by
  induction items with
  | nil => rfl
  | cons item items ih =>
      rw [List.mapM_cons, passes item (by simp), ok_bind,
        ih fun other member => passes other (by simp [member])]
      rfl

/-- A list of steps keeps what each of them keeps. -/
theorem foldlM_invariant {σ : Type} {step : σ → α → Except ε σ} {inv : σ → Prop} {items : List α}
    (keeps : ∀ item ∈ items, ∀ state next, inv state → step state item = .ok next → inv next)
    {state last : σ} (start : inv state) (done : items.foldlM step state = .ok last) :
    inv last := by
  induction items generalizing state with
  | nil =>
      cases done
      exact start
  | cons item items ih =>
      rw [List.foldlM_cons] at done
      obtain ⟨next, first, rest⟩ := bind_eq_ok.mp done
      exact ih (fun other member => keeps other (List.mem_cons_of_mem item member))
        (keeps item List.mem_cons_self state next start first) rest

/-! ## Errors that cannot happen -/

/-- A run that does not stop with an error of the given kind. -/
def Never (bad : ε → Prop) (result : Except ε α) : Prop :=
  ∀ error, result = .error error → ¬ bad error

section Never

variable {bad : ε → Prop}

theorem never_ok (value : α) : Never bad (.ok value) := by
  intro error failed
  cases failed

theorem never_error {error : ε} (other : ¬ bad error) :
    Never bad (.error error : Except ε α) := by
  intro _ failed
  cases failed
  exact other

/-- A sequence avoids what its first part avoids and what the rest avoids whenever the
first part lets it go on. -/
theorem Never.bind {first : Except ε α} {second : α → Except ε β} (head : Never bad first)
    (rest : ∀ value, first = .ok value → Never bad (second value)) :
    Never bad (first >>= second) := by
  intro error failed
  cases result : first with
  | error stopped =>
      rw [result] at failed
      cases failed
      exact head error result
  | ok value =>
      rw [result] at failed
      exact rest value result error failed

theorem never_refuseIf {condition : Prop} [Decidable condition] {error : ε}
    (other : ¬ bad error) : Never bad (refuseIf condition error) := by
  unfold refuseIf
  split
  · exact never_error other
  · exact never_ok ()

/-- A check that never fires avoids everything. -/
theorem never_of_not {condition : Prop} [Decidable condition] (fails : ¬ condition)
    (error : ε) : Never bad (refuseIf condition error) := by
  rw [refuseIf_of_not fails]
  exact never_ok ()

theorem never_orRefuse {value : Option α} {error : ε} (other : ¬ bad error) :
    Never bad (orRefuse value error) := by
  cases value with
  | none => exact never_error other
  | some value => exact never_ok value

theorem Never.mapM {check : α → Except ε β} (each : ∀ item, Never bad (check item)) :
    ∀ items : List α, Never bad (items.mapM check) := by
  intro items
  induction items with
  | nil => exact never_ok []
  | cons item items ih =>
      rw [List.mapM_cons]
      exact (each item).bind fun _ _ => ih.bind fun _ _ => never_ok _

theorem Never.foldlM {σ : Type} {step : σ → α → Except ε σ}
    (each : ∀ state item, Never bad (step state item)) :
    ∀ (items : List α) (state : σ), Never bad (items.foldlM step state) := by
  intro items
  induction items with
  | nil => exact fun state => never_ok state
  | cons item items ih =>
      intro state
      rw [List.foldlM_cons]
      exact (each state item).bind fun next _ => ih next

end Never

end Refusals
