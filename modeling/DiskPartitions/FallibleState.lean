import DiskPartitions.Refusals

/-!
# Fallible computations on a state

A computation that changes a state and can fail keeps what it changed before
failing.  This file says how such runs compose, how a run that settles all its
checks before its first change splits into a plan and the changes, and how a run
on one half of a pair leaves the other half alone.
-/

namespace FallibleState

variable {ε σ τ α β γ : Type}

/-- A computation on a state that can fail and keeps its changes when it does. -/
abbrev Fallible (ε σ : Type) := ExceptT ε (StateM σ)

namespace Fallible

/-- Run a computation, keeping the state it leaves. -/
def exec (action : Fallible ε σ α) (state : σ) : Except ε α × σ :=
  StateT.run (ExceptT.run action) state

/-- A computation that does not touch the state. -/
def ofExcept (result : Except ε α) : Fallible ε σ α := ExceptT.mk (pure result)

/-- The state as it is now. -/
def current : Fallible ε σ σ := ExceptT.mk fun state => (.ok state, state)

/-- Change the state. -/
def change (update : σ → σ) : Fallible ε σ Unit :=
  ExceptT.mk fun state => (.ok (), update state)

/-- Run a computation on the second half of a pair. -/
def onSecond (action : Fallible ε τ α) : Fallible ε (σ × τ) α :=
  ExceptT.mk fun state =>
    ((action.exec state.2).1, (state.1, (action.exec state.2).2))

@[simp]
theorem exec_pure (value : α) (state : σ) :
    (pure value : Fallible ε σ α).exec state = (.ok value, state) := rfl

@[simp]
theorem exec_ofExcept (result : Except ε α) (state : σ) :
    (ofExcept result : Fallible ε σ α).exec state = (result, state) := rfl

@[simp]
theorem exec_change (update : σ → σ) (state : σ) :
    (change update : Fallible ε σ Unit).exec state = (.ok (), update state) := rfl

@[simp]
theorem exec_onSecond (action : Fallible ε τ α) (state : σ × τ) :
    (onSecond action : Fallible ε (σ × τ) α).exec state =
      ((action.exec state.2).1, (state.1, (action.exec state.2).2)) := rfl

/-- A sequence runs its second part on the state the first one leaves, and
stops there when the first one fails. -/
theorem exec_bind (first : Fallible ε σ α) (second : α → Fallible ε σ β) (state : σ) :
    (first >>= second).exec state =
      match first.exec state with
      | (.ok value, after) => (second value).exec after
      | (.error error, after) => (.error error, after) := by
  simp only [exec, ExceptT.run_bind, StateT.run_bind]
  rcases StateT.run (ExceptT.run first) state with ⟨result, after⟩
  cases result <;> rfl

@[simp]
theorem exec_current_bind (second : σ → Fallible ε σ β) (state : σ) :
    (current >>= second).exec state = (second state).exec state := rfl

/-- A check that does not touch the state stops the run or lets it go on. -/
theorem exec_ofExcept_bind (result : Except ε α) (second : α → Fallible ε σ β) (state : σ) :
    (ofExcept result >>= second).exec state =
      match result with
      | .ok value => (second value).exec state
      | .error error => (.error error, state) := by
  rw [exec_bind]
  cases result <;> rfl

/-- A sequence that succeeds did so in both of its parts. -/
theorem exec_bind_eq_ok {first : Fallible ε σ α} {second : α → Fallible ε σ β} {state after : σ}
    {result : β} (succeeded : (first >>= second).exec state = (.ok result, after)) :
    ∃ value middle, first.exec state = (.ok value, middle) ∧
      (second value).exec middle = (.ok result, after) := by
  rw [exec_bind] at succeeded
  split at succeeded
  next value middle ran => exact ⟨value, middle, ran, succeeded⟩
  next error middle ran => cases succeeded

/-- A sequence avoids the errors that both of its parts avoid. -/
theorem never_exec_bind {bad : ε → Prop} {first : Fallible ε σ α} {second : α → Fallible ε σ β}
    {state : σ} (head : Refusals.Never bad (first.exec state).1)
    (rest : ∀ value middle, Refusals.Never bad ((second value).exec middle).1) :
    Refusals.Never bad ((first >>= second).exec state).1 := by
  rw [exec_bind]
  split
  next value middle ran => exact rest value middle
  next error middle ran =>
    rw [ran] at head
    exact Refusals.never_error (head error rfl)

/-- An action that first settles `plan`, without touching the state, and then
runs `finish` on what was planned. -/
def Planned (action : Fallible ε σ β) (plan : Except ε γ) (finish : γ → Fallible ε σ β)
    (state : σ) : Prop :=
  action.exec state =
    match plan with
    | .ok planned => (finish planned).exec state
    | .error error => (.error error, state)

section Planning

variable {state : σ} {finish : γ → Fallible ε σ β}

/-- A check before a planned action belongs to its plan. -/
theorem Planned.check {result : Except ε α} {action : α → Fallible ε σ β}
    {plan : α → Except ε γ} (rest : ∀ value, Planned (action value) (plan value) finish state) :
    Planned (ofExcept result >>= action) (result >>= plan) finish state := by
  unfold Planned
  rw [exec_ofExcept_bind]
  cases result with
  | error error => rfl
  | ok value => exact rest value

/-- What is left to do once everything is planned. -/
theorem Planned.done (planned : γ) : Planned (finish planned) (pure planned) finish state := rfl

/-- A refused plan leaves the state as it was. -/
theorem Planned.refused {action : Fallible ε σ β} {plan : Except ε γ}
    (runs : Planned action plan finish state) {error : ε} (refused : plan = .error error) :
    action.exec state = (.error error, state) := by
  unfold Planned at runs
  rw [runs, refused]

theorem Planned.accepted {action : Fallible ε σ β} {plan : Except ε γ}
    (runs : Planned action plan finish state) {planned : γ} (accepted : plan = .ok planned) :
    action.exec state = (finish planned).exec state := by
  unfold Planned at runs
  rw [runs, accepted]

end Planning

end Fallible

end FallibleState
