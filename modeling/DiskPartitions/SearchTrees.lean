import Mathlib.Data.List.TakeWhile
import Mathlib.Order.Lattice

/-!
# Search trees

A node of a search tree lists entries under ascending keys.  At a leaf an entry is a key of
the tree with its value; at another node it is a smaller tree and the least key that may be in
it.  A walk that goes on from the last entry at or below a key finds what the tree holds
under the key, whatever the shape of the tree.
-/

namespace SearchTrees

variable {K V P R : Type*} [LinearOrder K]

/-! ## The last entry below a key -/

/-- The last of the leading entries whose keys are at or below `key`. -/
def lastBelow (key : K) : List (K × V) → Option (K × V)
  | [] => none
  | entry :: rest => if entry.1 ≤ key then some ((lastBelow key rest).getD entry) else none

/-- Entries under ascending keys. -/
def Ascending (entries : List (K × V)) : Prop :=
  entries.Pairwise fun first second => first.1 < second.1

variable {key : K} {entries : List (K × V)}

theorem lastBelow_eq_none (ascending : Ascending entries) :
    lastBelow key entries = none ↔ ∀ entry ∈ entries, key < entry.1 := by
  cases entries with
  | nil => simp [lastBelow]
  | cons first rest =>
      obtain ⟨later, _⟩ := List.pairwise_cons.mp ascending
      rw [lastBelow]
      constructor
      · intro none entry listed
        have above : key < first.1 := by
          by_contra below
          rw [if_pos (not_lt.mp below)] at none
          cases none
        rcases List.mem_cons.mp listed with rfl | further
        · exact above
        · exact above.trans (later entry further)
      · intro above
        exact if_neg (not_le.mpr (above first List.mem_cons_self))

/-- The last entry below a key is the one with the greatest key that is. -/
theorem lastBelow_eq_some (ascending : Ascending entries) {entry : K × V} :
    lastBelow key entries = some entry ↔
      entry ∈ entries ∧ entry.1 ≤ key ∧ ∀ other ∈ entries, other.1 ≤ key → other.1 ≤ entry.1 := by
  induction entries generalizing entry with
  | nil => simp [lastBelow]
  | cons first rest ih =>
      obtain ⟨later, others⟩ := List.pairwise_cons.mp ascending
      rw [lastBelow]
      by_cases below : first.1 ≤ key
      · rw [if_pos below, Option.some.injEq]
        cases last : lastBelow key rest with
        | none =>
            have above := (lastBelow_eq_none others).mp last
            constructor
            · rintro rfl
              refine ⟨List.mem_cons_self, below, fun other listed otherBelow => ?_⟩
              rcases List.mem_cons.mp listed with rfl | further
              · exact le_refl _
              · exact absurd otherBelow (not_le.mpr (above other further))
            · rintro ⟨listed, entryBelow, _⟩
              rcases List.mem_cons.mp listed with same | further
              · exact same.symm
              · exact absurd entryBelow (not_le.mpr (above entry further))
        | some found =>
            obtain ⟨there, foundBelow, greatest⟩ := (ih others).mp last
            constructor
            · rintro rfl
              refine ⟨List.mem_cons_of_mem _ there, foundBelow, fun other listed otherBelow => ?_⟩
              rcases List.mem_cons.mp listed with rfl | further
              · exact (later found there).le
              · exact greatest other further otherBelow
            · rintro ⟨listed, entryBelow, highest⟩
              rcases List.mem_cons.mp listed with rfl | further
              · have reaches := highest found (List.mem_cons_of_mem _ there) foundBelow
                exact absurd (later found there) (not_lt.mpr reaches)
              · refine Option.some.inj (last.symm.trans ((ih others).mpr ⟨further, entryBelow, ?_⟩))
                exact fun other listed => highest other (List.mem_cons_of_mem _ listed)
      · rw [if_neg below]
        refine iff_of_false (Option.some_ne_none entry).symm ?_
        rintro ⟨listed, entryBelow, _⟩
        rcases List.mem_cons.mp listed with rfl | further
        · exact below entryBelow
        · exact below ((later entry further).le.trans entryBelow)

/-- The last entry below is found by counting the leading entries that are. -/
theorem lastBelow_eq_getElem? (key : K) (entries : List (K × V)) :
    lastBelow key entries =
      match (entries.takeWhile fun entry => decide (entry.1 ≤ key)).length with
      | 0 => none
      | i + 1 => entries[i]? := by
  induction entries with
  | nil => rfl
  | cons first rest ih =>
      rw [lastBelow, List.takeWhile_cons]
      by_cases below : first.1 ≤ key
      · rw [if_pos below, if_pos (decide_eq_true below), List.length_cons, ih]
        cases counted : (rest.takeWhile fun entry => decide (entry.1 ≤ key)).length with
        | zero => rfl
        | succ i =>
            have inside : i < rest.length := by
              have shorter := (List.takeWhile_prefix fun entry : K × V =>
                decide (entry.1 ≤ key) : _ <+: rest).length_le
              omega
            dsimp only
            rw [List.getElem?_cons_succ, List.getElem?_eq_getElem inside, Option.getD_some]
      · rw [if_neg below, if_neg (by simpa using below)]
        rfl

/-! ## Trees -/

variable (leaf : P → List (K × V) → Prop) (node : P → List (K × P) → Prop)

/-- The node at a place is the root of a tree at most `depth` nodes deep that holds a map.
`leaf` and `node` say what is at a place. -/
inductive Holds : Nat → P → (K → Option V) → Prop
  | leaf {depth : Nat} {place : P} {entries : List (K × V)} {map : K → Option V}
      (here : leaf place entries) (ascending : Ascending entries)
      (whole : ∀ key value, map key = some value ↔ (key, value) ∈ entries) :
      Holds (depth + 1) place map
  | node {depth : Nat} {place : P} {children : List (K × P)} {child : K × P → K → Option V}
      {map : K → Option V} (here : node place children) (ascending : Ascending children)
      (subtrees : ∀ entry ∈ children, Holds depth entry.2 (child entry))
      (bounded : ∀ entry ∈ children, ∀ key, child entry key ≠ none → entry.1 ≤ key ∧
        ∀ other ∈ children, entry.1 < other.1 → key < other.1)
      (whole : ∀ key value, map key = some value ↔
        ∃ entry ∈ children, child entry key = some value) :
      Holds (depth + 1) place map

variable {leaf node}

/-- A leaf holds the value of its last entry below the key, if that is the key's. -/
theorem leaf_lookup {map : K → Option V} (ascending : Ascending entries)
    (whole : ∀ key value, map key = some value ↔ (key, value) ∈ entries) (key : K) :
    map key = (lastBelow key entries).bind fun entry =>
      if entry.1 = key then some entry.2 else none := by
  refine Option.ext fun value => ?_
  rw [whole, Option.bind_eq_some_iff]
  constructor
  · intro listed
    refine ⟨(key, value), (lastBelow_eq_some ascending).mpr ⟨listed, le_refl key, ?_⟩, if_pos rfl⟩
    intro other _ below
    exact below
  · rintro ⟨entry, last, own⟩
    obtain ⟨listed, _⟩ := (lastBelow_eq_some ascending).mp last
    split at own
    next same =>
      cases own
      rw [← same]
      exact listed
    next => cases own

/-- Another node holds what the tree under its last entry below the key does. -/
theorem node_lookup {children : List (K × P)} {child : K × P → K → Option V} {map : K → Option V}
    (ascending : Ascending children)
    (bounded : ∀ entry ∈ children, ∀ key, child entry key ≠ none → entry.1 ≤ key ∧
      ∀ other ∈ children, entry.1 < other.1 → key < other.1)
    (whole : ∀ key value, map key = some value ↔ ∃ entry ∈ children, child entry key = some value)
    (key : K) :
    map key = (lastBelow key children).bind fun entry => child entry key := by
  refine Option.ext fun value => ?_
  rw [whole, Option.bind_eq_some_iff]
  constructor
  · rintro ⟨entry, listed, held⟩
    obtain ⟨below, above⟩ := bounded entry listed key (by rw [held]; exact Option.some_ne_none _)
    refine ⟨entry, (lastBelow_eq_some ascending).mpr ⟨listed, below, ?_⟩, held⟩
    intro other there otherBelow
    by_contra further
    exact absurd (above other there (not_le.mp further)) (not_lt.mpr otherBelow)
  · rintro ⟨entry, last, held⟩
    exact ⟨entry, ((lastBelow_eq_some ascending).mp last).1, held⟩

/-- A walk that goes down by the last entry below a key answers with what the tree holds. -/
theorem Holds.walk {walk : Nat → P → R} {answer : Option V → R} {key : K}
    (leaves : ∀ depth place entries, leaf place entries → walk (depth + 1) place =
      answer ((lastBelow key entries).bind fun entry =>
        if entry.1 = key then some entry.2 else none))
    (nodes : ∀ depth place children, node place children → walk (depth + 1) place =
      match lastBelow key children with
      | some entry => walk depth entry.2
      | none => answer none)
    {depth : Nat} {place : P} {map : K → Option V} (holds : Holds leaf node depth place map) :
    walk depth place = answer (map key) := by
  induction holds with
  | leaf here ascending whole => rw [leaves _ _ _ here, leaf_lookup ascending whole]
  | node here ascending subtrees bounded whole ih =>
      rw [nodes _ _ _ here, node_lookup ascending bounded whole]
      cases last : lastBelow key _ with
      | none => rfl
      | some entry => exact ih entry ((lastBelow_eq_some ascending).mp last).1

end SearchTrees
