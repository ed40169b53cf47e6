import DiskPartitions.Refusals
import Mathlib.Data.List.Induction
import Mathlib.Data.List.Nodup

/-!
# Claims on numbered slots

Every claim takes an empty slot and is refused a full one.  The claims of a list succeed
together exactly when no two are on one slot, and then each slot holds what was claimed of
it, whatever the order of the claims.
-/

namespace ClaimedSlots

open Refusals

variable {ε β : Type}

/-- Put a value in an empty slot. -/
def takeSlot (full : Nat → ε) (slots : List (Option β)) (claim : Nat × β) :
    Except ε (List (Option β)) := do
  refuseIf ((slots.getD claim.1 none).isSome) (full claim.1)
  .ok (slots.set claim.1 (some claim.2))

/-- What the claims leave in a slot. -/
def claimed (claims : List (Nat × β)) (slot : Nat) : Option β :=
  (claims.find? fun claim => claim.1 = slot).map Prod.snd

/-- The slots with every claim in its own. -/
def filled (slots : Nat) (claims : List (Nat × β)) : List (Option β) :=
  (List.range slots).map (claimed claims)

theorem getD_filled {slots slot : Nat} (inside : slot < slots) (claims : List (Nat × β)) :
    (filled slots claims).getD slot none = claimed claims slot := by
  rw [filled, List.getD_eq_getElem?_getD, List.getElem?_map, List.getElem?_range inside]
  rfl

theorem claimed_eq_none_iff {claims : List (Nat × β)} {slot : Nat} :
    claimed claims slot = none ↔ slot ∉ claims.map Prod.fst := by
  rw [claimed, Option.map_eq_none_iff, List.find?_eq_none]
  constructor
  · intro other listed
    obtain ⟨claim, member, same⟩ := List.mem_map.mp listed
    exact other claim member (decide_eq_true same)
  · intro absent claim member same
    exact absent (of_decide_eq_true same ▸ List.mem_map_of_mem member)

/-- Where no slot is claimed twice, a slot holds the value of its claim. -/
theorem claimed_eq_some_iff {claims : List (Nat × β)} (nodup : (claims.map Prod.fst).Nodup)
    {slot : Nat} {value : β} : claimed claims slot = some value ↔ (slot, value) ∈ claims := by
  rw [claimed, Option.map_eq_some_iff]
  constructor
  · rintro ⟨claim, found, rfl⟩
    have same := List.find?_some found
    rw [decide_eq_true_eq] at same
    rw [← same]
    exact List.mem_of_find?_eq_some found
  · intro member
    have present : (claims.find? fun claim => claim.1 = slot).isSome := by
      rw [List.find?_isSome]
      exact ⟨_, member, decide_eq_true rfl⟩
    obtain ⟨claim, found⟩ := Option.isSome_iff_exists.mp present
    have same := List.find?_some found
    rw [decide_eq_true_eq] at same
    have own := List.inj_on_of_nodup_map nodup (List.mem_of_find?_eq_some found) member same
    exact ⟨claim, found, by rw [own]⟩

/-- Claims on slots of their own do not depend on their order. -/
theorem filled_perm {claims others : List (Nat × β)} (nodup : (claims.map Prod.fst).Nodup)
    (perm : claims.Perm others) (slots : Nat) : filled slots claims = filled slots others := by
  have again : (others.map Prod.fst).Nodup := (perm.map Prod.fst).nodup_iff.mp nodup
  refine List.map_congr_left fun slot _ => Option.ext fun value => ?_
  rw [claimed_eq_some_iff nodup, claimed_eq_some_iff again, perm.mem_iff]

/-- A claim on an empty slot. -/
theorem filled_append {slots : Nat} {claims : List (Nat × β)} {claim : Nat × β}
    (empty : claim.1 ∉ claims.map Prod.fst) :
    (filled slots claims).set claim.1 (some claim.2) = filled slots (claims ++ [claim]) := by
  refine List.ext_getElem? fun slot => ?_
  simp only [filled, List.getElem?_set, List.length_map, List.length_range, List.getElem?_map]
  by_cases inside : slot < slots
  · rw [List.getElem?_range inside, Option.map_some, Option.map_some]
    by_cases own : claim.1 = slot
    · subst own
      have before : claims.find? (fun other => other.1 = claim.1) = none := by
        rw [List.find?_eq_none]
        intro other member same
        exact empty (of_decide_eq_true same ▸ List.mem_map_of_mem member)
      simp [inside, claimed, List.find?_append, before]
    · simp [own, claimed, List.find?_append]
  · rw [List.getElem?_eq_none (by simpa using inside)]
    by_cases own : claim.1 = slot
    · subst own
      simp [inside]
    · simp [own]

variable {full : Nat → ε} {slots : Nat}

/-- Claims on slots of their own all succeed. -/
theorem foldlM_takeSlot {claims : List (Nat × β)} (nodup : (claims.map Prod.fst).Nodup)
    (inside : ∀ claim ∈ claims, claim.1 < slots) :
    claims.foldlM (takeSlot full) (List.replicate slots none) = .ok (filled slots claims) := by
  induction claims using List.reverseRecOn with
  | nil =>
      have none : List.replicate slots none = filled slots ([] : List (Nat × β)) := by
        have unclaimed : claimed ([] : List (Nat × β)) = fun _ => none := rfl
        rw [filled, unclaimed, List.map_const', List.length_range]
      rw [List.foldlM_nil, none]
      rfl
  | append_singleton claims claim ih =>
      rw [List.map_append, List.nodup_append] at nodup
      obtain ⟨earlier, _, apart⟩ := nodup
      have empty : claim.1 ∉ claims.map Prod.fst := fun listed =>
        apart _ listed _ (by simp) rfl
      have within := inside claim (by simp)
      have free : ¬ (none : Option β).isSome = true := Bool.false_ne_true
      rw [List.foldlM_append, ih earlier fun other member => inside other (by simp [member]),
        ok_bind, List.foldlM_cons, takeSlot, getD_filled within,
        claimed_eq_none_iff.mpr empty, refuseIf_of_not free, ok_bind, ok_bind,
        filled_append empty]
      rfl

/-- Claims that all succeed are on slots of their own. -/
theorem nodup_of_foldlM_takeSlot {claims : List (Nat × β)} {placed : List (Option β)}
    (inside : ∀ claim ∈ claims, claim.1 < slots)
    (done : claims.foldlM (takeSlot full) (List.replicate slots none) = .ok placed) :
    (claims.map Prod.fst).Nodup := by
  induction claims using List.reverseRecOn generalizing placed with
  | nil => exact List.nodup_nil
  | append_singleton claims claim ih =>
      have within := inside claim (by simp)
      have earlierInside : ∀ other ∈ claims, other.1 < slots :=
        fun other member => inside other (by simp [member])
      rw [List.foldlM_append] at done
      obtain ⟨before, earlier, done⟩ := bind_eq_ok.mp done
      have nodup := ih earlierInside earlier
      obtain rfl := Except.ok.inj (earlier.symm.trans (foldlM_takeSlot nodup earlierInside))
      rw [List.foldlM_cons, takeSlot, getD_filled within] at done
      obtain ⟨_, taken, _⟩ := bind_eq_ok.mp done
      obtain ⟨empty, _⟩ := refuseIf_bind_eq_ok.mp taken
      rw [Bool.not_eq_true, Option.isSome_eq_false_iff, Option.isNone_iff_eq_none,
        claimed_eq_none_iff] at empty
      rw [List.map_append, List.nodup_append]
      refine ⟨nodup, by simp, ?_⟩
      intro slot listed other last same
      rw [List.map_singleton, List.mem_singleton] at last
      exact empty (last ▸ same ▸ listed)

end ClaimedSlots
