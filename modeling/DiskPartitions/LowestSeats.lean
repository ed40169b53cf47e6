import DiskPartitions.SlotAssignment
import Mathlib.Data.List.Sort

/-!
# The lowest seats

The free pointer of a slot assignment only moves forward, past seats that partitions
later in the list hold too.  What it hands out is nevertheless the lowest seats that
nothing claims, in order, and it runs out exactly when there are too few of them.
-/

namespace DiskPartitions

open Refusals

/-! ## Seats from a pointer on -/

/-- The free seats from `next` on, the lowest first. -/
def openSeats (taken : List Bool) (next : Nat) : List Nat :=
  (taken.drop next).findIdxs (fun seat => !seat) next

theorem findIdxs_drop_takeWhile (seats : List Bool) (start : Nat) :
    (seats.drop (seats.takeWhile id).length).findIdxs (fun seat => !seat)
        (start + (seats.takeWhile id).length) =
      seats.findIdxs (fun seat => !seat) start := by
  induction seats generalizing start with
  | nil => rfl
  | cons seat seats ih =>
      cases seat with
      | false => rfl
      | true =>
          rw [List.findIdxs_cons, ← ih (start + 1)]
          simp [Nat.add_assoc, Nat.add_comm 1]

/-- Moving the pointer to the next free seat passes no free seat. -/
theorem openSeats_nextFreeSeat (taken : List Bool) (next : Nat) :
    openSeats taken (nextFreeSeat taken next) = openSeats taken next := by
  unfold openSeats
  rw [← findIdxs_drop_takeWhile (taken.drop next) next, List.drop_drop]
  rfl

/-- A pointer that ran off the end had no free seat left. -/
theorem openSeats_of_end {taken : List Bool} {next : Nat}
    (ended : nextFreeSeat taken next = taken.length) : openSeats taken next = [] := by
  rw [← openSeats_nextFreeSeat, ended, openSeats, List.drop_length]
  rfl

/-- The seat the pointer stops at is the first of the free ones, and once it is handed out
the others are left. -/
theorem openSeats_of_free {taken : List Bool} {next : Nat} (inside : next ≤ taken.length)
    (notEnd : nextFreeSeat taken next ≠ taken.length) :
    openSeats taken next = nextFreeSeat taken next ::
      openSeats (taken.set (nextFreeSeat taken next) true) (nextFreeSeat taken next) := by
  have free := (getElem?_nextFreeSeat inside).2 notEnd
  rw [← openSeats_nextFreeSeat]
  generalize nextFreeSeat taken next = seat at free
  obtain ⟨bound, value⟩ := List.getElem?_eq_some_iff.mp free
  have after : seat < (taken.set seat true).length := by rwa [List.length_set]
  have others : (taken.set seat true).drop (seat + 1) = taken.drop (seat + 1) :=
    List.drop_set_of_lt (Nat.lt_succ_self seat)
  unfold openSeats
  rw [List.drop_eq_getElem_cons bound, value, List.drop_eq_getElem_cons after,
    List.getElem_set_self, others, List.findIdxs_cons, List.findIdxs_cons]
  rfl

/-! ## Seating -/

/-- The partitions that have never been in a table. -/
def unslotted (partitions : List Partition) : List Partition :=
  partitions.filter fun p => p.slot.isNone

/-- The slots that partitions without one are given, in the order of the list. -/
def newSlots (partitions : List Partition) (slots : List UInt32) : List Nat :=
  ((partitions.zip slots).filter fun seat => seat.1.slot.isNone).map fun seat => seat.2.toNat

theorem unslotted_cons_some {p : Partition} {slot : UInt32} (own : p.slot = some slot)
    (rest : List Partition) : unslotted (p :: rest) = unslotted rest := by
  rw [unslotted, List.filter_cons_of_neg (by simp [own])]
  rfl

theorem unslotted_cons_none {p : Partition} (fresh : p.slot = none) (rest : List Partition) :
    unslotted (p :: rest) = p :: unslotted rest := by
  rw [unslotted, List.filter_cons_of_pos (by simp [fresh])]
  rfl

theorem newSlots_cons_some {p : Partition} {own : UInt32} (recorded : p.slot = some own)
    (rest : List Partition) (slot : UInt32) (slots : List UInt32) :
    newSlots (p :: rest) (slot :: slots) = newSlots rest slots := by
  rw [newSlots, List.zip_cons_cons, List.filter_cons_of_neg (by simp [recorded])]
  rfl

theorem newSlots_cons_none {p : Partition} (fresh : p.slot = none) (rest : List Partition)
    (slot : UInt32) (slots : List UInt32) :
    newSlots (p :: rest) (slot :: slots) = slot.toNat :: newSlots rest slots := by
  rw [newSlots, List.zip_cons_cons, List.filter_cons_of_pos (by simp [fresh]), List.map_cons]
  rfl

/-- Partitions are seated exactly when there are seats enough from the pointer on, and the
new ones take the first of them. -/
theorem seatPartitions_lowest {partitions : List Partition} {taken : List Bool} {next : Nat}
    (inside : next ≤ taken.length) (width : taken.length ≤ 2 ^ 32) :
    ((∃ slots, seatPartitions partitions taken next = .ok slots) ↔
        (unslotted partitions).length ≤ (openSeats taken next).length) ∧
      ∀ slots, seatPartitions partitions taken next = .ok slots →
        newSlots partitions slots =
          (openSeats taken next).take (unslotted partitions).length := by
  induction partitions generalizing taken next with
  | nil =>
      constructor
      · exact ⟨fun _ => Nat.zero_le _, fun _ => ⟨[], rfl⟩⟩
      · intro slots seated
        cases seated
        rfl
  | cons p rest ih =>
      unfold seatPartitions
      cases own : p.slot with
      | some slot =>
          obtain ⟨possible, given⟩ := ih inside width
          rw [unslotted_cons_some own]
          dsimp only
          constructor
          · rw [← possible]
            exact exists_bind_pure_eq_ok
          · intro slots seated
            obtain ⟨tail, restSeated, same⟩ := bind_eq_ok.mp seated
            cases same
            rw [newSlots_cons_some own]
            exact given tail restSeated
      | none =>
          rw [unslotted_cons_none own, List.length_cons]
          dsimp only
          by_cases ended : nextFreeSeat taken next = taken.length
          · rw [if_pos ended, openSeats_of_end ended]
            constructor
            · constructor
              · rintro ⟨slots, seated⟩
                cases seated
              · intro enough
                exact absurd enough (Nat.not_succ_le_zero _)
            · intro slots seated
              cases seated
          · have within := (getElem?_nextFreeSeat inside).1
            have value : (UInt32.ofNat (nextFreeSeat taken next)).toNat =
                nextFreeSeat taken next :=
              UInt32.toNat_ofNat_of_lt' (by simp [UInt32.size]; omega)
            obtain ⟨possible, given⟩ := @ih
              (taken.set (nextFreeSeat taken next) true) (nextFreeSeat taken next)
              (by rw [List.length_set]; exact within) (by rw [List.length_set]; exact width)
            rw [if_neg ended, openSeats_of_free inside ended, List.length_cons,
              Nat.add_le_add_iff_right, List.take_succ_cons]
            constructor
            · rw [← possible]
              exact exists_bind_pure_eq_ok
            · intro slots seated
              obtain ⟨tail, restSeated, same⟩ := bind_eq_ok.mp seated
              cases same
              rw [newSlots_cons_none own, value, given tail restSeated]

/-! ## The table -/

/-- The slots that are spoken for before any is handed out. -/
def claimedSlots (partitions : List Partition) (preTaken : List UInt32) : List UInt32 :=
  preTaken ++ partitions.filterMap Partition.slot

/-- The seats of a table of `n` that none of the slots occupies, the lowest first. -/
def seatsLeft (n : Nat) (claimed : List UInt32) : List Nat :=
  (List.range n).filter fun seat => seat ∉ claimed.map UInt32.toNat

/-- Once the claims are made, the free seats are those that none of the slots occupies. -/
theorem openSeats_eq_seatsLeft {claimed : List UInt32} {taken : List Bool}
    (flags : ∀ i, taken[i]? = some true ↔ ∃ slot ∈ claimed, slot.toNat = i) :
    openSeats taken 0 = seatsLeft taken.length claimed := by
  have ascending : (openSeats taken 0).Pairwise (· < ·) := List.pairwise_findIdxs
  have ranged : (seatsLeft taken.length claimed).Pairwise (· < ·) :=
    List.pairwise_lt_range.filter _
  apply ascending.eq_of_mem_iff ranged
  intro seat
  rw [openSeats, List.drop_zero, List.mem_findIdxs_iff_exists_getElem_pos, seatsLeft,
    List.mem_filter, List.mem_range, decide_eq_true_eq, List.mem_map]
  constructor
  · rintro ⟨bound, free⟩
    refine ⟨bound, fun claim => ?_⟩
    have flag := (flags seat).mpr claim
    rw [List.getElem?_eq_getElem bound] at flag
    simp [Option.some.inj flag] at free
  · rintro ⟨bound, unclaimed⟩
    refine ⟨bound, ?_⟩
    have untaken : taken[seat]? ≠ some true := fun flag => unclaimed ((flags seat).mp flag)
    rw [List.getElem?_eq_getElem bound] at untaken
    simpa using untaken

/-- Slots are assigned exactly when those spoken for are distinct and inside the table, and
the new partitions find seats enough; and these get the lowest of them. -/
theorem assignSlotsWithTaken_lowest (partitions : List Partition) (numEntries : UInt32)
    (preTaken : List UInt32) :
    ((∃ slots, assignSlotsWithTaken partitions numEntries preTaken = .ok slots) ↔
        (∀ slot ∈ claimedSlots partitions preTaken, slot.toNat < numEntries.toNat) ∧
        (claimedSlots partitions preTaken).Nodup ∧
        (unslotted partitions).length ≤
          (seatsLeft numEntries.toNat (claimedSlots partitions preTaken)).length) ∧
      ∀ slots, assignSlotsWithTaken partitions numEntries preTaken = .ok slots →
        newSlots partitions slots =
          (seatsLeft numEntries.toNat (claimedSlots partitions preTaken)).take
            (unslotted partitions).length := by
  have tableSize := numEntries.toNat_lt
  constructor
  · constructor
    · rintro ⟨slots, assigned⟩
      obtain ⟨reserved, reserving, afterFirst⟩ := bind_eq_ok.mp assigned
      obtain ⟨taken, claiming, seated⟩ := bind_eq_ok.mp afterFirst
      obtain ⟨nodup, bounded, width, flags⟩ := claims_eq_ok reserving claiming
      refine ⟨bounded, nodup, ?_⟩
      rw [← width, claimedSlots, ← openSeats_eq_seatsLeft flags]
      exact (seatPartitions_lowest (Nat.zero_le _) (by omega)).1.mp ⟨slots, seated⟩
    · rintro ⟨bounded, nodup, enough⟩
      obtain ⟨reserved, taken, reserving, claiming, -⟩ := exists_claims
        "reserved entry slot past the end of the table" "partition slot past the end of the table"
        nodup bounded
      obtain ⟨-, -, width, flags⟩ := claims_eq_ok reserving claiming
      rw [← width, claimedSlots, ← openSeats_eq_seatsLeft flags] at enough
      obtain ⟨slots, seated⟩ :=
        (seatPartitions_lowest (Nat.zero_le _) (by omega)).1.mpr enough
      exact ⟨slots, by rw [assignSlotsWithTaken, reserving, ok_bind, claiming, ok_bind, seated]⟩
  · intro slots assigned
    obtain ⟨reserved, reserving, afterFirst⟩ := bind_eq_ok.mp assigned
    obtain ⟨taken, claiming, seated⟩ := bind_eq_ok.mp afterFirst
    obtain ⟨-, -, width, flags⟩ := claims_eq_ok reserving claiming
    rw [← width, claimedSlots, ← openSeats_eq_seatsLeft flags]
    exact (seatPartitions_lowest (Nat.zero_le _) (by omega)).2 slots seated

/-- A slot assignment is refused exactly when a slot spoken for is past the end of the
table, two of them are one, or there are more new partitions than seats left.  Otherwise
every partition gets one slot of the table, no two the same and none that is reserved: its
own when it has one, and the new ones, in the order of the list, the lowest seats that
nothing claims. -/
theorem assignSlots_exact (partitions : List Partition) (numEntries : UInt32)
    (preTaken : List UInt32) :
    ((∃ error, assignSlotsWithTaken partitions numEntries preTaken = .error error) ↔
        (∃ slot ∈ claimedSlots partitions preTaken, numEntries.toNat ≤ slot.toNat) ∨
        ¬ (claimedSlots partitions preTaken).Nodup ∨
        (seatsLeft numEntries.toNat (claimedSlots partitions preTaken)).length <
          (unslotted partitions).length) ∧
      ∀ slots, assignSlotsWithTaken partitions numEntries preTaken = .ok slots →
        slots.length = partitions.length ∧ slots.Nodup ∧
        (∀ slot ∈ slots, slot.toNat < numEntries.toNat ∧ slot ∉ preTaken) ∧
        (∀ seat ∈ partitions.zip slots, ∀ slot, seat.1.slot = some slot → seat.2 = slot) ∧
        newSlots partitions slots =
          (seatsLeft numEntries.toNat (claimedSlots partitions preTaken)).take
            (unslotted partitions).length := by
  obtain ⟨possible, lowest⟩ := assignSlotsWithTaken_lowest partitions numEntries preTaken
  constructor
  · have refused : (∃ error, assignSlotsWithTaken partitions numEntries preTaken =
        .error error) ↔
        ¬ ∃ slots, assignSlotsWithTaken partitions numEntries preTaken = .ok slots := by
      cases assignSlotsWithTaken partitions numEntries preTaken with
      | error error => simp
      | ok slots => simp
    rw [refused, possible, not_and_or, not_and_or, not_le]
    push Not
    rfl
  · intro slots assigned
    obtain ⟨length, nodup, bounded, kept⟩ := assignSlotsWithTaken_eq_ok assigned
    rw [List.nodup_append] at nodup
    obtain ⟨distinct, -, apart⟩ := nodup
    refine ⟨length, distinct, fun slot member => ⟨?_, fun also => ?_⟩, kept,
      lowest slots assigned⟩
    · exact bounded slot (List.mem_append_left _ member)
    · exact apart slot member slot also rfl

/-- A partition of one sector, with the slot it is recorded in. -/
def slottedPartition (slot : Option UInt32) : Partition where
  start := 512
  length := 512
  kind := .gpt (.filled 1) 0
  label := none
  uuid := none
  slot := slot
  issues := 0
  availableLength := 512

/-- Slot 1 is reserved, and a later partition holds slot 0: the new ones go past both. -/
theorem assignSlots_exact_holes :
    ∃ slots, assignSlotsWithTaken
        [slottedPartition (some 2), slottedPartition none, slottedPartition (some 0),
          slottedPartition none] 5 [1] = .ok slots ∧
      newSlots [slottedPartition (some 2), slottedPartition none, slottedPartition (some 0),
        slottedPartition none] slots = [3, 4] := by
  have assigned : assignSlotsWithTaken
      [slottedPartition (some 2), slottedPartition none, slottedPartition (some 0),
        slottedPartition none] 5 [1] = .ok [2, 3, 0, 4] := by decide +kernel
  obtain ⟨-, -, -, -, lowest⟩ := (assignSlots_exact _ _ _).2 _ assigned
  exact ⟨_, assigned, lowest.trans (by decide +kernel)⟩

end DiskPartitions
