import Mathlib.Data.List.Basic
import Mathlib.Data.List.Nodup
import Mathlib.Data.List.Induction

/-!
# Items gathered by key

A pass over a list that merges every item into the group with its key, or opens a
group for it.  The groups come in the order their keys are first met, no key has two,
and each is what its own items make of it, whatever came between them.  A second pass
of the same kind keeps, of the items it meets, the first whose measure is highest.
-/

namespace KeyedGroups

variable {α β K : Type*}

/-! ## Gathering -/

/-- How items become groups: the key of each, the group an item opens, and what a
group becomes when an item with its key joins it. -/
structure Grouping (α β K : Type*) where
  itemKey : α → K
  groupKey : β → K
  start : α → β
  merge : β → α → β
  groupKey_start : ∀ item, groupKey (start item) = itemKey item
  groupKey_merge : ∀ group item, groupKey group = itemKey item →
    groupKey (merge group item) = groupKey group

namespace Grouping

variable [DecidableEq K] (g : Grouping α β K)

/-- Merge an item into the first group with its key, or open one at the end. -/
def insert (item : α) : List β → List β
  | [] => [g.start item]
  | group :: rest =>
      if g.groupKey group = g.itemKey item then g.merge group item :: rest
      else group :: insert item rest

/-- The groups of a list. -/
def gather (items : List α) : List β :=
  items.foldl (fun groups item => g.insert item groups) []

/-- The items of a list with the key of a group. -/
def itemsOf (items : List α) (group : β) : List α :=
  items.filter fun item => g.itemKey item = g.groupKey group

/-- A group is what its own items, taken in order, make of it. -/
def MadeOf (items : List α) (group : β) : Prop :=
  ∃ first rest, g.itemsOf items group = first :: rest ∧
    group = rest.foldl g.merge (g.start first)

/-- An item either joins the group with its key or opens a new one. -/
theorem insert_cases (item : α) (groups : List β) :
    (∃ before group after, groups = before ++ group :: after ∧
      g.groupKey group = g.itemKey item ∧
      g.insert item groups = before ++ g.merge group item :: after) ∨
    (∀ group ∈ groups, g.groupKey group ≠ g.itemKey item) ∧
      g.insert item groups = groups ++ [g.start item] := by
  induction groups with
  | nil => exact .inr ⟨by simp, rfl⟩
  | cons group rest ih =>
      by_cases same : g.groupKey group = g.itemKey item
      · exact .inl ⟨[], group, rest, rfl, same, if_pos same⟩
      · have passed : g.insert item (group :: rest) = group :: g.insert item rest := if_neg same
        rcases ih with ⟨before, found, after, rfl, key, merged⟩ | ⟨fresh, opened⟩
        · refine .inl ⟨group :: before, found, after, rfl, key, ?_⟩
          rw [passed, merged, List.cons_append]
        · refine .inr ⟨?_, ?_⟩
          · intro other member
            rcases List.mem_cons.mp member with rfl | later
            · exact same
            · exact fresh other later
          · rw [passed, opened, List.cons_append]

/-- What a pass over `items` leaves. -/
structure Gathered (items : List α) (groups : List β) : Prop where
  keys : groups.map g.groupKey = (items.map g.itemKey).eraseDups
  nodup : (groups.map g.groupKey).Nodup
  made : ∀ group ∈ groups, g.MadeOf items group

variable {g} {items : List α} {groups : List β}

theorem itemsOf_append_of_eq {group : β} {item : α} (same : g.itemKey item = g.groupKey group) :
    g.itemsOf (items ++ [item]) group = g.itemsOf items group ++ [item] := by
  simp [itemsOf, List.filter_append, same]

theorem itemsOf_append_of_ne {group : β} {item : α} (other : g.itemKey item ≠ g.groupKey group) :
    g.itemsOf (items ++ [item]) group = g.itemsOf items group := by
  simp [itemsOf, List.filter_append, other]

/-- A group with its item merged is made of one item more. -/
theorem MadeOf.merge {group : β} {item : α} (made : g.MadeOf items group)
    (same : g.groupKey group = g.itemKey item) :
    g.MadeOf (items ++ [item]) (g.merge group item) := by
  obtain ⟨first, rest, own, folded⟩ := made
  have key := g.groupKey_merge group item same
  refine ⟨first, rest ++ [item], ?_, ?_⟩
  · rw [itemsOf_append_of_eq (by rw [key, same])]
    have kept : g.itemsOf items (g.merge group item) = g.itemsOf items group := by
      simp only [itemsOf, key]
    rw [kept, own, List.cons_append]
  · rw [List.foldl_append, ← folded]
    rfl

/-- An item with another key changes nothing about a group. -/
theorem MadeOf.pass {group : β} {item : α} (made : g.MadeOf items group)
    (other : g.groupKey group ≠ g.itemKey item) : g.MadeOf (items ++ [item]) group := by
  obtain ⟨first, rest, own, folded⟩ := made
  exact ⟨first, rest, by rw [itemsOf_append_of_ne (Ne.symm other), own], folded⟩

theorem gathered_nil : g.Gathered [] [] where
  keys := rfl
  nodup := List.nodup_nil
  made := by simp

/-- One more item. -/
theorem Gathered.insert (gathered : g.Gathered items groups) (item : α) :
    g.Gathered (items ++ [item]) (g.insert item groups) := by
  have keysAppend : ((items ++ [item]).map g.itemKey).eraseDups =
      (items.map g.itemKey).eraseDups ++
        ([g.itemKey item].removeAll (items.map g.itemKey)).eraseDups := by
    rw [List.map_append, List.eraseDups_append]
    rfl
  have known : ∀ key, key ∈ items.map g.itemKey ↔ key ∈ groups.map g.groupKey := by
    intro key
    rw [gathered.keys, List.mem_eraseDups]
  rcases g.insert_cases item groups with ⟨before, group, after, split, same, merged⟩ |
    ⟨fresh, opened⟩
  · have key := g.groupKey_merge group item same
    have keys : (g.insert item groups).map g.groupKey = groups.map g.groupKey := by
      rw [merged, split]
      simp [key]
    have present : g.itemKey item ∈ items.map g.itemKey := by
      rw [known, ← same, split]
      simp
    refine ⟨?_, by rw [keys]; exact gathered.nodup, ?_⟩
    · have gone : [g.itemKey item].removeAll (items.map g.itemKey) = [] := by
        simpa [List.removeAll] using present
      rw [keysAppend, gone, keys, gathered.keys]
      simp
    · intro other member
      rw [merged] at member
      have apart := gathered.nodup
      rw [split, List.map_append, List.map_cons, List.nodup_append, List.nodup_cons] at apart
      obtain ⟨_, ⟨notAfter, _⟩, notBefore⟩ := apart
      rcases List.mem_append.mp member with earlier | rest
      · refine (gathered.made other (by rw [split]; simp [earlier])).pass ?_
        rw [← same]
        exact fun equal => notBefore _ (List.mem_map_of_mem earlier) _ (by simp) equal
      · rcases List.mem_cons.mp rest with rfl | later
        · exact (gathered.made group (by rw [split]; simp)).merge same
        · refine (gathered.made other (by rw [split]; simp [later])).pass ?_
          rw [← same]
          exact fun equal => notAfter (equal ▸ List.mem_map_of_mem later)
  · have absent : g.itemKey item ∉ items.map g.itemKey := by
      rw [known]
      intro listed
      obtain ⟨group, member, same⟩ := List.mem_map.mp listed
      exact fresh group member same
    have keys : (g.insert item groups).map g.groupKey =
        groups.map g.groupKey ++ [g.itemKey item] := by
      rw [opened]
      simp [g.groupKey_start]
    refine ⟨?_, ?_, ?_⟩
    · have left : [g.itemKey item].removeAll (items.map g.itemKey) = [g.itemKey item] := by
        simpa [List.removeAll] using absent
      rw [keysAppend, left, keys, gathered.keys]
      simp [List.eraseDups_cons]
    · rw [keys, List.nodup_append]
      refine ⟨gathered.nodup, by simp, ?_⟩
      intro key listed other last equal
      rw [List.mem_singleton.mp last] at equal
      rw [known] at absent
      exact absent (equal ▸ listed)
    · intro group member
      rw [opened] at member
      rcases List.mem_append.mp member with old | new
      · exact (gathered.made group old).pass (fresh group old)
      · rw [List.mem_singleton.mp new]
        refine ⟨item, [], ?_, rfl⟩
        rw [itemsOf_append_of_eq (g.groupKey_start item).symm]
        have none : g.itemsOf items (g.start item) = [] := by
          rw [itemsOf, List.filter_eq_nil_iff]
          intro other listed same
          rw [decide_eq_true_eq, g.groupKey_start] at same
          exact absent (same ▸ List.mem_map_of_mem listed)
        rw [none]
        rfl

variable (g) (items)

/-- The groups of a list come in the order their keys are first met, no key has two,
and each is made of its own items. -/
theorem gathered_gather : g.Gathered items (g.gather items) := by
  induction items using List.reverseRecOn with
  | nil => exact gathered_nil
  | append_singleton items item ih =>
      rw [gather, List.foldl_append]
      exact ih.insert item

/-- Sorted into groups by key, a list loses and repeats nothing. -/
theorem perm_flatMap_filter (key : α → K) {keys : List K} (nodup : keys.Nodup)
    {items : List α} (known : ∀ item ∈ items, key item ∈ keys) :
    (keys.flatMap fun k => items.filter fun item => key item = k).Perm items := by
  induction keys generalizing items with
  | nil =>
      have empty : items = [] :=
        List.eq_nil_iff_forall_not_mem.mpr fun item member => by simpa using known item member
      rw [empty, List.flatMap_nil]
  | cons first keys ih =>
      rw [List.nodup_cons] at nodup
      obtain ⟨fresh, nodup⟩ := nodup
      have later : ∀ item ∈ items.filter (fun item => !decide (key item = first)),
          key item ∈ keys := by
        intro item member
        have listed := List.mem_filter.mp member
        have other : key item ≠ first := by simpa using listed.2
        exact (List.mem_cons.mp (known item listed.1)).resolve_left other
      have same : (keys.flatMap fun k => items.filter fun item => key item = k) =
          keys.flatMap fun k => (items.filter fun item => !decide (key item = first)).filter
            fun item => key item = k := by
        refine List.flatMap_congr fun k member => ?_
        rw [List.filter_filter]
        refine List.filter_congr fun item _ => ?_
        by_cases here : key item = k
        · subst here
          have apart : key item ≠ first := fun equal => fresh (equal ▸ member)
          simp [apart]
        · simp [here]
      rw [List.flatMap_cons, same]
      exact ((ih nodup later).append_left _).trans (List.filter_append_perm _ items)

/-- The groups share out the items. -/
theorem Gathered.perm {groups : List β} (gathered : g.Gathered items groups) :
    (groups.flatMap (g.itemsOf items)).Perm items := by
  have flat : groups.flatMap (g.itemsOf items) =
      (groups.map g.groupKey).flatMap fun k => items.filter fun item => g.itemKey item = k := by
    rw [List.flatMap_map]
    rfl
  rw [flat]
  refine perm_flatMap_filter g.itemKey gathered.nodup ?_
  intro item member
  rw [gathered.keys, List.mem_eraseDups]
  exact List.mem_map_of_mem member

end Grouping

/-! ## Dealing into piles -/

section Dealing

variable {γ : Type*}

/-- Picking some of the items of a list keeps their order. -/
theorem map_filterMap_sublist {pick : α → Option β} {front : α → γ} {back : β → γ}
    (own : ∀ item picked, pick item = some picked → back picked = front item)
    {items : List α} : ((items.filterMap pick).map back).Sublist (items.map front) := by
  induction items with
  | nil => exact .slnil
  | cons item items ih =>
      rw [List.filterMap_cons, List.map_cons]
      split
      next => exact ih.cons _
      next picked found =>
        rw [List.map_cons, own item picked found]
        exact ih.cons_cons _

variable (place : α → Option Nat)

/-- Lay an item on the pile its place says, or leave all piles as they are. -/
def deal (piles : List (List α)) (item : α) : List (List α) :=
  match place item with
  | some pile => piles.modify pile (· ++ [item])
  | none => piles

/-- Every pile holds the items whose place it is, in the order they were dealt. -/
theorem foldl_deal (items : List α) (piles : Nat) :
    items.foldl (deal place) (List.replicate piles []) =
      (List.range piles).map fun pile => items.filter fun item => place item = some pile := by
  induction items using List.reverseRecOn with
  | nil => simp
  | append_singleton items item ih =>
      rw [List.foldl_append, ih, List.foldl_cons, List.foldl_nil]
      unfold deal
      cases found : place item with
      | none => simp [List.filter_append, found]
      | some own =>
          refine List.ext_getElem? fun pile => ?_
          rw [List.getElem?_modify, List.getElem?_map, List.getElem?_map]
          cases listed : (List.range piles)[pile]? with
          | none => simp
          | some here =>
              have same : pile = here := by
                obtain ⟨bound, same⟩ := List.getElem?_eq_some_iff.mp listed
                rwa [List.getElem_range] at same
              subst same
              by_cases target : own = pile
              · simp [List.filter_append, found, target]
              · simp [List.filter_append, found, target]

end Dealing

/-! ## The first of the highest -/

section Newest

variable (measure : α → Nat)

/-- Keep the one met first unless the next one is higher. -/
def newer (best item : α) : α := if measure best < measure item then item else best

/-- The kept item is the first whose measure nothing exceeds. -/
structure FirstHighest (items : List α) (best : α) : Prop where
  found : items.find? (fun item => measure item = measure best) = some best
  highest : ∀ item ∈ items, measure item ≤ measure best

variable {measure}

theorem FirstHighest.mem {items : List α} {best : α}
    (kept : FirstHighest measure items best) : best ∈ items :=
  List.mem_of_find?_eq_some kept.found

theorem FirstHighest.append {items : List α} {best : α}
    (kept : FirstHighest measure items best) (item : α) :
    FirstHighest measure (items ++ [item]) (newer measure best item) := by
  unfold newer
  split
  next higher =>
    constructor
    · rw [List.find?_append, List.find?_eq_none.mpr, Option.none_or]
      · simp
      · intro other member same
        have below := kept.highest other member
        rw [decide_eq_true_eq] at same
        omega
    · intro other member
      rcases List.mem_append.mp member with old | new
      · exact Nat.le_of_lt (Nat.lt_of_le_of_lt (kept.highest other old) higher)
      · exact Nat.le_of_eq (congrArg measure (List.mem_singleton.mp new))
  next notHigher =>
    constructor
    · rw [List.find?_append, kept.found]
      rfl
    · intro other member
      rcases List.mem_append.mp member with old | new
      · exact kept.highest other old
      · rw [List.mem_singleton.mp new]
        omega

/-- A pass that keeps the newer item ends with the first of the highest. -/
theorem firstHighest_foldl (first : α) (rest : List α) :
    FirstHighest measure (first :: rest) (rest.foldl (newer measure) first) := by
  induction rest using List.reverseRecOn with
  | nil => exact ⟨by simp, by simp⟩
  | append_singleton rest item ih =>
      rw [List.foldl_append, ← List.cons_append]
      exact ih.append item

/-- The highest measure of a list, counted as the loop counts it. -/
theorem FirstHighest.foldl_max {items : List α} {best : α}
    (kept : FirstHighest measure items best) :
    (items.map measure).foldl max 0 = measure best := by
  have bounded : ∀ (values : List Nat) (start : Nat),
      start ≤ values.foldl max start ∧ (∀ value ∈ values, value ≤ values.foldl max start) ∧
        (values.foldl max start = start ∨ values.foldl max start ∈ values) := by
    intro values
    induction values with
    | nil => simp
    | cons value values ih =>
        intro start
        obtain ⟨above, each, reached⟩ := ih (max start value)
        rw [List.foldl_cons]
        refine ⟨by omega, ?_, ?_⟩
        · intro other member
          rcases List.mem_cons.mp member with rfl | later
          · omega
          · exact each other later
        · rcases reached with same | inside
          · by_cases larger : start ≤ value
            · exact .inr (by rw [same, Nat.max_eq_right larger]; simp)
            · exact .inl (by rw [same, Nat.max_eq_left (by omega)])
          · exact .inr (List.mem_cons_of_mem _ inside)
  obtain ⟨_, each, reached⟩ := bounded (items.map measure) 0
  have low := each _ (List.mem_map_of_mem kept.mem)
  rcases reached with zero | inside
  · omega
  · obtain ⟨item, member, same⟩ := List.mem_map.mp inside
    have high := kept.highest item member
    omega

/-- The first of the highest is the same whatever else is asked of it. -/
theorem FirstHighest.unique {items : List α} {first second : α}
    (left : FirstHighest measure items first) (right : FirstHighest measure items second) :
    first = second := by
  have same : measure first = measure second :=
    Nat.le_antisymm (right.highest first left.mem) (left.highest second right.mem)
  have found := left.found
  rw [same, right.found] at found
  exact (Option.some.inj found).symm

end Newest

/-! ## The newest item of each key -/

section NewestByKey

variable (key : α → K) (measure : α → Nat)

/-- Groups that keep one item, the first of the highest with their key. -/
def newestByKey : Grouping α α K where
  itemKey := key
  groupKey := key
  start item := item
  merge := newer measure
  groupKey_start _ := rfl
  groupKey_merge group item same := by
    unfold newer
    split
    next => exact same.symm
    next => rfl

/-- An item of the list that nothing with its key exceeds. -/
def IsNewest (items : List α) (item : α) : Prop :=
  item ∈ items ∧ ∀ other ∈ items, key other = key item → measure other ≤ measure item

/-- Items of one key and measure are the same item. -/
def Identical (items : List α) : Prop :=
  ∀ first ∈ items, ∀ second ∈ items,
    key first = key second → measure first = measure second → first = second

variable {key measure} {items : List α}

theorem Identical.perm {others : List α} (identical : Identical key measure items)
    (perm : items.Perm others) : Identical key measure others := by
  intro first listed second also
  exact identical first (perm.mem_iff.mpr listed) second (perm.mem_iff.mpr also)

theorem isNewest_perm {others : List α} (perm : items.Perm others) (item : α) :
    IsNewest key measure items item ↔ IsNewest key measure others item := by
  simp only [IsNewest, perm.mem_iff]

variable [DecidableEq K]

/-- The item kept for a key is the first of the highest with it. -/
theorem firstHighest_of_mem_gather {group : α}
    (kept : group ∈ (newestByKey key measure).gather items) :
    FirstHighest measure (items.filter fun item => key item = key group) group := by
  have gathered := (newestByKey key measure).gathered_gather items
  obtain ⟨first, rest, own, folded⟩ := gathered.made group kept
  have same : (items.filter fun item => key item = key group) = first :: rest := own
  rw [same, folded]
  exact firstHighest_foldl first rest

theorem isNewest_of_mem_gather {group : α}
    (kept : group ∈ (newestByKey key measure).gather items) : IsNewest key measure items group := by
  have best := firstHighest_of_mem_gather kept
  refine ⟨(List.mem_filter.mp best.mem).1, ?_⟩
  intro other listed same
  exact best.highest other (List.mem_filter.mpr ⟨listed, decide_eq_true same⟩)

/-- Every key of the list has an item kept for it. -/
theorem exists_mem_gather {item : α} (listed : item ∈ items) :
    ∃ group ∈ (newestByKey key measure).gather items, key group = key item := by
  have gathered := (newestByKey key measure).gathered_gather items
  have known : key item ∈ ((newestByKey key measure).gather items).map key := by
    have keys : ((newestByKey key measure).gather items).map key = (items.map key).eraseDups :=
      gathered.keys
    rw [keys, List.mem_eraseDups]
    exact List.mem_map_of_mem listed
  obtain ⟨group, kept, same⟩ := List.mem_map.mp known
  exact ⟨group, kept, same⟩

/-- Where copies of one key and measure are identical, the items kept are the newest. -/
theorem mem_gather_iff (identical : Identical key measure items) {item : α} :
    item ∈ (newestByKey key measure).gather items ↔ IsNewest key measure items item := by
  constructor
  · exact isNewest_of_mem_gather
  · intro newest
    obtain ⟨group, kept, same⟩ : ∃ group ∈ (newestByKey key measure).gather items,
        key group = key item := exists_mem_gather newest.1
    have best := isNewest_of_mem_gather kept
    have equal : measure group = measure item :=
      Nat.le_antisymm (newest.2 group best.1 same) (best.2 item newest.1 same.symm)
    exact identical group best.1 item newest.1 same equal ▸ kept

theorem nodup_gather : ((newestByKey key measure).gather items).Nodup := by
  have keys := ((newestByKey key measure).gathered_gather items).nodup
  exact List.Nodup.of_map key keys

/-- Where copies of one key and measure are identical, the items kept do not depend on the
order of the list. -/
theorem perm_gather {others : List α} (identical : Identical key measure items)
    (perm : items.Perm others) :
    ((newestByKey key measure).gather items).Perm ((newestByKey key measure).gather others) := by
  rw [List.perm_ext_iff_of_nodup nodup_gather nodup_gather]
  intro item
  rw [mem_gather_iff identical, mem_gather_iff (identical.perm perm)]
  exact isNewest_perm perm item

/-- A list that begins with the newest item of a key keeps it first. -/
theorem gather_cons_newest (identical : Identical key measure items) {first : α}
    {rest : List α} (perm : items.Perm (first :: rest)) (newest : IsNewest key measure items first) :
    ∃ others, (newestByKey key measure).gather (first :: rest) = first :: others := by
  have gathered := (newestByKey key measure).gathered_gather (first :: rest)
  have keys : ((newestByKey key measure).gather (first :: rest)).map key =
      key first :: ((rest.map key).filter fun other => !other == key first).eraseDups := by
    rw [← List.eraseDups_cons, ← List.map_cons]
    exact gathered.keys
  cases groups : (newestByKey key measure).gather (first :: rest) with
  | nil =>
      rw [groups] at keys
      cases keys
  | cons group others =>
      rw [groups, List.map_cons, List.cons.injEq] at keys
      have kept : group ∈ (newestByKey key measure).gather (first :: rest) := by
        rw [groups]
        exact List.mem_cons_self
      have best := isNewest_of_mem_gather kept
      have own := (isNewest_perm perm first).mp newest
      have equal : measure group = measure first :=
        Nat.le_antisymm (own.2 group best.1 keys.1) (best.2 first own.1 keys.1.symm)
      have same := identical.perm perm group best.1 first own.1 keys.1 equal
      exact ⟨others, by rw [same]⟩

end NewestByKey

end KeyedGroups
