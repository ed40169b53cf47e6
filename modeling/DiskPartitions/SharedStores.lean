import DiskPartitions.WriteJournal
import Mathlib.Logic.Function.Basic

/-!
# Stores that share a device

Stores with keys of their own lie in one device, each in a region of it.  A step either puts
items into one store, or lays the stores out anew and keeps the first few items of each.  An item
that no step cuts off is therefore the last one put in its place, whatever happened to the other
stores, and the regions of a device are such stores as long as they keep apart.
-/

namespace SharedStores

open Slices WriteJournal

variable {κ α : Type*}

/-- One step: items put into a store, or a new layout that keeps the first items of each. -/
inductive Act (κ α : Type*)
  | put (key : κ) (offset : Nat) (data : List α)
  | lay (kept : κ → Nat)

namespace Act

/-- The step keeps the item in a place of a store, or puts another one there. -/
def Spares (key : κ) (place : Nat) : Act κ α → Prop
  | put _ _ _ => True
  | lay kept => place < kept key

variable [DecidableEq κ]

/-- The item a step leaves in a place that it does not cut off. -/
def leaves (key : κ) (place : Nat) (item : α) : Act κ α → α
  | put other offset data =>
      if other = key ∧ offset ≤ place then data[place - offset]?.getD item else item
  | lay _ => item

end Act

variable [DecidableEq κ]

/-- What a step may do to the stores. -/
inductive Step : (κ → List α) → Act κ α → (κ → List α) → Prop
  | put {stores : κ → List α} {key : κ} {offset : Nat} {data : List α}
      (inside : offset + data.length ≤ (stores key).length) :
      Step stores (.put key offset data)
        (Function.update stores key (splice (stores key) offset data))
  | lay {stores after : κ → List α} {kept : κ → Nat}
      (before : ∀ key, kept key ≤ (stores key).length)
      (behind : ∀ key, kept key ≤ (after key).length)
      (same : ∀ key, (after key).take (kept key) = (stores key).take (kept key)) :
      Step stores (.lay kept) after

/-- What several steps may do, one after the other. -/
inductive StoreRun : (κ → List α) → List (Act κ α) → (κ → List α) → Prop
  | nil {stores : κ → List α} : StoreRun stores [] stores
  | cons {stores between after : κ → List α} {act : Act κ α} {acts : List (Act κ α)}
      (step : Step stores act between) (rest : StoreRun between acts after) :
      StoreRun stores (act :: acts) after

theorem StoreRun.append {stores between after : κ → List α} {acts rest : List (Act κ α)}
    (run : StoreRun stores acts between) (next : StoreRun between rest after) :
    StoreRun stores (acts ++ rest) after := by
  induction run with
  | nil => exact next
  | cons step _ ih => exact .cons step (ih next)

section Items

variable {stores after : κ → List α} {key : κ} {place : Nat} {item : α}

theorem Step.getElem? {act : Act κ α} (step : Step stores act after)
    (spares : act.Spares key place) (held : (stores key)[place]? = some item) :
    (after key)[place]? = some (act.leaves key place item) := by
  cases step with
  | @put other offset data inside =>
      by_cases own : other = key
      · subst own
        rw [Function.update_self, getElem?_splice inside, Act.leaves]
        by_cases within : offset ≤ place ∧ place < offset + data.length
        · rw [if_pos within, if_pos ⟨rfl, within.1⟩, List.getElem?_eq_getElem (by omega),
            Option.getD_some]
        · rw [if_neg within, held]
          by_cases behind : offset ≤ place
          · rw [if_pos ⟨rfl, behind⟩, List.getElem?_eq_none (by omega), Option.getD_none]
          · rw [if_neg (fun both => behind both.2)]
      · rw [Function.update_of_ne (Ne.symm own), held, Act.leaves,
          if_neg (fun both => own both.1)]
  | lay before behind same =>
      have first := congrArg (fun items => items[place]?) (same key)
      rw [Act.Spares] at spares
      simp only [List.getElem?_take, if_pos spares] at first
      rw [first, held, Act.leaves]

/-- An item that no step cuts off is the last one put in its place. -/
theorem StoreRun.getElem? {acts : List (Act κ α)} (run : StoreRun stores acts after)
    (spares : ∀ act ∈ acts, act.Spares key place) (held : (stores key)[place]? = some item) :
    (after key)[place]? =
      some (acts.foldl (fun item act => act.leaves key place item) item) := by
  induction run generalizing item with
  | nil => exact held
  | cons step rest ih =>
      rw [List.foldl_cons]
      exact ih (fun act later => spares act (List.mem_cons_of_mem _ later))
        (step.getElem? (spares _ List.mem_cons_self) held)

end Items

/-! ## Regions of a device -/

/-- The stores in the regions of a device. -/
def storesIn (device : List α) (region : κ → Nat × Nat) (key : κ) : List α :=
  slice device (region key).1 (region key).2

section Regions

variable {device : List α} {region : κ → Nat × Nat}

omit [DecidableEq κ] in
theorem length_storesIn {key : κ}
    (inside : (region key).1 + (region key).2 ≤ device.length) :
    (storesIn device region key).length = (region key).2 :=
  length_slice inside

/-- Writing inside a region that keeps apart from the others puts the items into its store. -/
theorem step_put {key : κ} {offset : Nat} {data : List α}
    (apart : ∀ other, other ≠ key → Apart (region key) (region other))
    (held : (region key).1 + (region key).2 ≤ device.length)
    (inside : offset + data.length ≤ (region key).2) :
    Step (storesIn device region) (.put key offset data)
      (storesIn (splice device ((region key).1 + offset) data) region) := by
  have whole : storesIn (splice device ((region key).1 + offset) data) region =
      Function.update (storesIn device region) key
        (splice (storesIn device region key) offset data) := by
    funext other
    by_cases own : other = key
    · subst own
      rw [Function.update_self, storesIn, storesIn,
        slice_splice_around held (Nat.le_add_right _ _) (by omega), Nat.add_sub_cancel_left]
    · rw [Function.update_of_ne own]
      apply slice_splice_disjoint (by omega)
      rcases apart other own with before | behind
      · exact .inr (by omega)
      · exact .inl (by omega)
  rw [whole]
  exact .put (by rw [length_storesIn held]; exact inside)

/-- Regions that start where they did keep their first items as far as the device does. -/
theorem step_lay {after : List α} {next : κ → Nat × Nat} {kept : κ → Nat}
    (before : ∀ key, kept key ≤ (storesIn device region key).length)
    (behind : ∀ key, kept key ≤ (storesIn after next key).length)
    (same : ∀ key, 0 < kept key →
      slice after (next key).1 (kept key) = slice device (region key).1 (kept key)) :
    Step (storesIn device region) (.lay kept) (storesIn after next) := by
  have short : ∀ (items : List α) (place : Nat × Nat) (count : Nat),
      count ≤ (slice items place.1 place.2).length →
      (slice items place.1 place.2).take count = slice items place.1 count := by
    intro items place count fits
    have room : count ≤ place.2 := Nat.le_trans fits (List.length_take_le _ _)
    rw [slice, slice, List.take_take, Nat.min_eq_left room]
  refine .lay before behind fun key => ?_
  by_cases some_kept : 0 < kept key
  · have first := short after (next key) (kept key) (behind key)
    have second := short device (region key) (kept key) (before key)
    rw [storesIn, storesIn, first, second]
    exact same key some_kept
  · have none_kept : kept key = 0 := by omega
    rw [none_kept, List.take_zero, List.take_zero]

end Regions

end SharedStores
