import DiskPartitions.ListSlices
import DiskPartitions.PartitionRecords
import DiskPartitions.Refusals
import Mathlib.Data.List.Forall2

/-!
# Table slots

A partition that came off a disk goes back into its slot, and a new one takes
the lowest slot nothing claims.
-/

namespace DiskPartitions

open Refusals

/-- Mark a seat as taken, unless it is past the end or taken already. -/
def claimSlot (pastTheEnd : String) (taken : List Bool) (slot : UInt32) :
    Except Error (List Bool) :=
  match taken[slot.toNat]? with
  | none => .error (.invalid pastTheEnd)
  | some true => .error (.invalid "two entries claim the same table slot")
  | some false => .ok (taken.set slot.toNat true)

/-- Claim several seats, in order. -/
def claimSlots (pastTheEnd : String) : List UInt32 → List Bool → Except Error (List Bool)
  | [], taken => .ok taken
  | slot :: slots, taken => do
      claimSlots pastTheEnd slots (← claimSlot pastTheEnd taken slot)

/-- The lowest free seat at or after `next`, or the number of seats. -/
def nextFreeSeat (taken : List Bool) (next : Nat) : Nat :=
  next + ((taken.drop next).takeWhile id).length

/-- Hand out seats: the recorded one, or the lowest free one past the last handed out. -/
def seatPartitions : List Partition → List Bool → Nat → Except Error (List UInt32)
  | [], _, _ => .ok []
  | p :: rest, taken, next =>
      match p.slot with
      | some slot => do return slot :: (← seatPartitions rest taken next)
      | none =>
          let free := nextFreeSeat taken next
          if free = taken.length then .error (.invalid "no free slot left in the table")
          else do
            return UInt32.ofNat free :: (← seatPartitions rest (taken.set free true) free)

/-- Which table slot each partition is written into, with `preTaken` naming slots
already spoken for by something that is not a partition. -/
def assignSlotsWithTaken (partitions : List Partition) (numEntries : UInt32)
    (preTaken : List UInt32) : Except Error (List UInt32) := do
  let taken := List.replicate numEntries.toNat false
  let taken ← claimSlots "reserved entry slot past the end of the table" preTaken taken
  let taken ← claimSlots "partition slot past the end of the table"
    (partitions.filterMap Partition.slot) taken
  seatPartitions partitions taken 0

def assignSlots (partitions : List Partition) (numEntries : UInt32) :
    Except Error (List UInt32) :=
  assignSlotsWithTaken partitions numEntries []

theorem claimSlot_eq_ok {message : String} {taken after : List Bool} {slot : UInt32} :
    claimSlot message taken slot = .ok after ↔
      taken[slot.toNat]? = some false ∧ after = taken.set slot.toNat true := by
  unfold claimSlot
  split
  next absent => simp [absent]
  next claimed => simp [claimed]
  next free =>
    rw [Except.ok.injEq]
    simp [free, eq_comm]

/-- What claiming a list of seats did: they were free and distinct, and are the
only ones that changed. -/
theorem claimSlots_eq_ok {message : String} {slots : List UInt32} {taken after : List Bool}
    (claimed : claimSlots message slots taken = .ok after) :
    slots.Nodup ∧ (∀ slot ∈ slots, taken[slot.toNat]? = some false) ∧
      after.length = taken.length ∧
      ∀ i, after[i]? = some true ↔ taken[i]? = some true ∨ ∃ slot ∈ slots, slot.toNat = i := by
  induction slots generalizing taken with
  | nil =>
      cases claimed
      simp
  | cons slot slots ih =>
      obtain ⟨middle, first, rest⟩ := bind_eq_ok.mp claimed
      obtain ⟨free, rfl⟩ := claimSlot_eq_ok.mp first
      obtain ⟨nodup, wereFree, sameLength, flags⟩ := ih rest
      have bound : slot.toNat < taken.length := (List.getElem?_eq_some_iff.mp free).1
      have headSet : (taken.set slot.toNat true)[slot.toNat]? = some true := by
        rw [List.getElem?_set_self bound]
      have others : ∀ other ∈ slots, slot.toNat ≠ other.toNat := by
        intro other member same
        have still := wereFree other member
        rw [← same, headSet] at still
        cases still
      refine ⟨?_, ?_, ?_, ?_⟩
      · rw [List.nodup_cons]
        exact ⟨fun member => others slot member rfl, nodup⟩
      · intro other member
        rcases List.mem_cons.mp member with rfl | later
        · exact free
        · have still := wereFree other later
          rwa [List.getElem?_set_ne (others other later)] at still
      · rw [sameLength, List.length_set]
      · intro i
        rw [flags]
        by_cases same : slot.toNat = i
        · subst same
          simp [headSet]
        · rw [List.getElem?_set_ne same]
          simp [same]

theorem getElem?_length_takeWhile (seats : List Bool) :
    seats[(seats.takeWhile id).length]? ≠ some true := by
  induction seats with
  | nil => simp
  | cons seat seats ih =>
      cases seat with
      | false => simp
      | true => simpa using ih

/-- The seat found is free, unless the search ran off the end. -/
theorem getElem?_nextFreeSeat {taken : List Bool} {next : Nat} (inside : next ≤ taken.length) :
    nextFreeSeat taken next ≤ taken.length ∧
      (nextFreeSeat taken next ≠ taken.length →
        taken[nextFreeSeat taken next]? = some false) := by
  have shorter := (List.takeWhile_prefix (id : Bool → Bool) (l := taken.drop next)).length_le
  rw [List.length_drop] at shorter
  refine ⟨by unfold nextFreeSeat; omega, fun notEnd => ?_⟩
  have stopped := getElem?_length_takeWhile (taken.drop next)
  rw [List.getElem?_drop] at stopped
  change taken[nextFreeSeat taken next]? ≠ some true at stopped
  have bound : nextFreeSeat taken next < taken.length := by
    unfold nextFreeSeat at notEnd ⊢
    omega
  rw [List.getElem?_eq_getElem bound] at stopped ⊢
  simpa using stopped

/-- The seat a partition gets: its own when it has one, else one that was free. -/
def SeatedAt (taken : List Bool) (p : Partition) (slot : UInt32) : Prop :=
  p.slot = some slot ∨ p.slot = none ∧ taken[slot.toNat]? = some false

theorem seatPartitions_eq_ok {partitions : List Partition} {taken : List Bool} {next : Nat}
    {slots : List UInt32} (inside : next ≤ taken.length) (width : taken.length ≤ 2 ^ 32)
    (recorded : ∀ p ∈ partitions, ∀ slot, p.slot = some slot →
      taken[slot.toNat]? = some true)
    (distinct : (partitions.filterMap Partition.slot).Nodup)
    (seated : seatPartitions partitions taken next = .ok slots) :
    List.Forall₂ (SeatedAt taken) partitions slots ∧ slots.Nodup := by
  induction partitions generalizing taken next slots with
  | nil =>
      cases seated
      exact ⟨.nil, .nil⟩
  | cons p rest ih =>
      have restRecorded : ∀ q ∈ rest, ∀ slot, q.slot = some slot →
          taken[slot.toNat]? = some true :=
        fun q member => recorded q (by simp [member])
      unfold seatPartitions at seated
      split at seated
      next slot own =>
        rw [List.filterMap_cons_some own, List.nodup_cons] at distinct
        obtain ⟨tail, restSeated, same⟩ := bind_eq_ok.mp seated
        cases same
        obtain ⟨pairs, nodup⟩ := ih inside width restRecorded distinct.2 restSeated
        refine ⟨.cons (.inl own) pairs, List.nodup_cons.mpr ⟨fun member => ?_, nodup⟩⟩
        obtain ⟨q, later, seat⟩ := Slices.exists_of_mem_right pairs member
        rcases seat with other | ⟨_, free⟩
        · exact distinct.1 (List.mem_filterMap.mpr ⟨q, later, other⟩)
        · rw [recorded p (by simp) slot own] at free
          cases free
      next fresh =>
        rw [List.filterMap_cons_none fresh] at distinct
        obtain ⟨within, isFree⟩ := getElem?_nextFreeSeat inside
        dsimp only at seated
        split at seated
        · cases seated
        next notEnd =>
          have free := isFree notEnd
          have bound : nextFreeSeat taken next < taken.length := by omega
          have value : (UInt32.ofNat (nextFreeSeat taken next)).toNat =
              nextFreeSeat taken next :=
            UInt32.toNat_ofNat_of_lt' (by simp [UInt32.size]; omega)
          have seatSet : (taken.set (nextFreeSeat taken next) true)[nextFreeSeat taken next]? =
              some true := List.getElem?_set_self bound
          obtain ⟨tail, restSeated, same⟩ := bind_eq_ok.mp seated
          cases same
          have stillRecorded : ∀ q ∈ rest, ∀ slot, q.slot = some slot →
              (taken.set (nextFreeSeat taken next) true)[slot.toNat]? = some true := by
            intro q member slot own
            have was := restRecorded q member slot own
            rw [List.getElem?_set_ne (by
              intro equal
              rw [← equal, free] at was
              cases was)]
            exact was
          obtain ⟨pairs, nodup⟩ := ih (by rw [List.length_set]; omega)
            (by rw [List.length_set]; exact width) stillRecorded distinct restSeated
          refine ⟨.cons (.inr ⟨fresh, by rw [value]; exact free⟩) ?_,
            List.nodup_cons.mpr ⟨fun member => ?_, nodup⟩⟩
          · refine pairs.imp fun q slot seat => ?_
            rcases seat with own | ⟨none, seat⟩
            · exact .inl own
            · refine .inr ⟨none, ?_⟩
              rwa [List.getElem?_set_ne (by
                intro equal
                rw [← equal, seatSet] at seat
                cases seat)] at seat
          · obtain ⟨q, later, seat⟩ := Slices.exists_of_mem_right pairs member
            rcases seat with own | ⟨_, seat⟩
            · have was := restRecorded q later _ own
              rw [value, free] at was
              cases was
            · rw [value, seatSet] at seat
              cases seat

/-- What claiming the reserved slots and then those of partitions did: all of them are
inside the table and distinct, and they are the seats taken. -/
theorem claims_eq_ok {first second : String} {preTaken recorded : List UInt32} {n : Nat}
    {reserved taken : List Bool}
    (reserving : claimSlots first preTaken (List.replicate n false) = .ok reserved)
    (claiming : claimSlots second recorded reserved = .ok taken) :
    (preTaken ++ recorded).Nodup ∧ (∀ slot ∈ preTaken ++ recorded, slot.toNat < n) ∧
      taken.length = n ∧
      ∀ i, taken[i]? = some true ↔ ∃ slot ∈ preTaken ++ recorded, slot.toNat = i := by
  obtain ⟨reservedNodup, reservedFree, reservedLength, reservedFlags⟩ := claimSlots_eq_ok reserving
  obtain ⟨ownNodup, ownFree, takenLength, takenFlags⟩ := claimSlots_eq_ok claiming
  rw [List.length_replicate] at reservedLength
  have apart : ∀ slot ∈ preTaken, ∀ other ∈ recorded, slot ≠ other := by
    intro slot member other own same
    have flag := (reservedFlags slot.toNat).mpr (.inr ⟨slot, member, rfl⟩)
    rw [same, ownFree other own] at flag
    cases flag
  refine ⟨List.nodup_append.mpr ⟨reservedNodup, ownNodup, apart⟩, ?_, ?_, ?_⟩
  · intro slot member
    rcases List.mem_append.mp member with kept | own
    · have := (List.getElem?_eq_some_iff.mp (reservedFree slot kept)).1
      rwa [List.length_replicate] at this
    · have := (List.getElem?_eq_some_iff.mp (ownFree slot own)).1
      omega
  · rw [takenLength, reservedLength]
  · intro i
    have blank : (List.replicate n false)[i]? ≠ some true := by
      intro flag
      have member := List.mem_of_getElem? flag
      exact absurd (List.mem_replicate.mp member).2 (by decide)
    rw [takenFlags, reservedFlags]
    simp only [blank, false_or, List.mem_append, or_and_right, exists_or]

/-- Every partition gets one slot of the table: its own when it has one, and
never one that another partition or a reserved entry holds. -/
theorem assignSlotsWithTaken_eq_ok {partitions : List Partition} {numEntries : UInt32}
    {preTaken slots : List UInt32}
    (assigned : assignSlotsWithTaken partitions numEntries preTaken = .ok slots) :
    slots.length = partitions.length ∧ (slots ++ preTaken).Nodup ∧
      (∀ slot ∈ slots ++ preTaken, slot.toNat < numEntries.toNat) ∧
      ∀ seat ∈ partitions.zip slots, ∀ slot, seat.1.slot = some slot → seat.2 = slot := by
  obtain ⟨reserved, reserving, afterFirst⟩ := bind_eq_ok.mp assigned
  obtain ⟨taken, claiming, seated⟩ := bind_eq_ok.mp afterFirst
  obtain ⟨nodup, bounded, width, flags⟩ := claims_eq_ok reserving claiming
  rw [List.nodup_append] at nodup
  obtain ⟨reservedNodup, ownNodup, apart⟩ := nodup
  have tableSize := numEntries.toNat_lt
  have recorded : ∀ p ∈ partitions, ∀ slot, p.slot = some slot →
      taken[slot.toNat]? = some true := by
    intro p member slot own
    rw [flags]
    exact ⟨slot, List.mem_append_right _ (List.mem_filterMap.mpr ⟨p, member, own⟩), rfl⟩
  obtain ⟨pairs, distinct⟩ := seatPartitions_eq_ok (by omega) (by omega) recorded ownNodup seated
  have seatFacts : ∀ slot ∈ slots, slot ∉ preTaken ∧ slot.toNat < numEntries.toNat := by
    intro slot member
    obtain ⟨p, present, own | ⟨_, free⟩⟩ := Slices.exists_of_mem_right pairs member
    · have listed := List.mem_filterMap.mpr ⟨p, present, own⟩
      exact ⟨fun also => apart slot also slot listed rfl,
        bounded slot (List.mem_append_right _ listed)⟩
    · refine ⟨fun also => ?_, ?_⟩
      · have flag := (flags slot.toNat).mpr ⟨slot, List.mem_append_left _ also, rfl⟩
        rw [flag] at free
        cases free
      · have := (List.getElem?_eq_some_iff.mp free).1
        omega
  refine ⟨pairs.length_eq.symm, ?_, ?_, ?_⟩
  · rw [List.nodup_append]
    refine ⟨distinct, reservedNodup, fun slot member other also same => ?_⟩
    exact (seatFacts slot member).1 (same ▸ also)
  · intro slot member
    rcases List.mem_append.mp member with seat | kept
    · exact (seatFacts slot seat).2
    · exact bounded slot (List.mem_append_left _ kept)
  · intro seat member slot own
    rcases List.forall₂_zip pairs member with same | ⟨fresh, _⟩
    · rw [own] at same
      exact (Option.some.inj same).symm
    · rw [own] at fresh
      cases fresh

/-! ## Enough seats -/

/-- The number of free seats. -/
def freeSeats (taken : List Bool) : Nat := taken.count false

theorem freeSeats_set {taken : List Bool} {i : Nat} (free : taken[i]? = some false) :
    freeSeats (taken.set i true) + 1 = freeSeats taken := by
  obtain ⟨bound, value⟩ := List.getElem?_eq_some_iff.mp free
  have present : 0 < taken.count false := by
    rw [List.count_pos_iff, ← value]
    exact List.getElem_mem bound
  unfold freeSeats
  rw [List.count_set bound, value]
  simp
  omega

/-- Seats that are free and distinct can be claimed. -/
theorem exists_claimSlots (message : String) {slots : List UInt32} {taken : List Bool}
    (distinct : slots.Nodup) (free : ∀ slot ∈ slots, taken[slot.toNat]? = some false) :
    ∃ after, claimSlots message slots taken = .ok after ∧
      freeSeats after + slots.length = freeSeats taken := by
  induction slots generalizing taken with
  | nil => exact ⟨taken, rfl, rfl⟩
  | cons slot slots ih =>
      rw [List.nodup_cons] at distinct
      have own := free slot (by simp)
      have rest : ∀ other ∈ slots, (taken.set slot.toNat true)[other.toNat]? = some false := by
        intro other member
        have unequal : slot.toNat ≠ other.toNat := by
          intro same
          exact distinct.1 (UInt32.toNat_inj.mp same ▸ member)
        rw [List.getElem?_set_ne unequal]
        exact free other (by simp [member])
      obtain ⟨after, claimed, left⟩ := ih distinct.2 rest
      refine ⟨after, ?_, ?_⟩
      · rw [claimSlots, claimSlot_eq_ok.mpr ⟨own, rfl⟩, ok_bind, claimed]
      · have one := freeSeats_set own
        rw [List.length_cons]
        omega

theorem freeSeats_drop_takeWhile (seats : List Bool) :
    freeSeats (seats.drop (seats.takeWhile id).length) = freeSeats seats := by
  induction seats with
  | nil => rfl
  | cons seat seats ih =>
      cases seat with
      | false => rfl
      | true => simpa [freeSeats] using ih

/-- A free seat at or after `next` is found, and one fewer is left from there on. -/
theorem nextFreeSeat_of_free {taken : List Bool} {next : Nat}
    (free : 0 < freeSeats (taken.drop next)) :
    nextFreeSeat taken next < taken.length ∧
      freeSeats ((taken.set (nextFreeSeat taken next) true).drop (nextFreeSeat taken next)) + 1 =
        freeSeats (taken.drop next) := by
  have passed : freeSeats (taken.drop (nextFreeSeat taken next)) =
      freeSeats (taken.drop next) := by
    rw [← freeSeats_drop_takeWhile (taken.drop next), List.drop_drop]
    rfl
  have inside : nextFreeSeat taken next < taken.length := by
    by_contra past
    rw [List.drop_eq_nil_of_le (by omega)] at passed
    rw [← passed] at free
    exact absurd free (by decide)
  have within : next ≤ taken.length := by
    unfold nextFreeSeat at inside
    omega
  have seat := (getElem?_nextFreeSeat within).2 (by omega)
  have first : (taken.drop (nextFreeSeat taken next))[0]? = some false := by
    rw [List.getElem?_drop, Nat.add_zero, seat]
  refine ⟨inside, ?_⟩
  rw [List.drop_set, if_neg (Nat.lt_irrefl _), Nat.sub_self, freeSeats_set first, passed]

/-- Partitions are seated when the seats from `next` on are enough for the new ones. -/
theorem exists_seatPartitions {partitions : List Partition} {taken : List Bool} {next : Nat}
    (enough : partitions.length ≤
      freeSeats (taken.drop next) + (partitions.filterMap Partition.slot).length) :
    ∃ slots, seatPartitions partitions taken next = .ok slots := by
  induction partitions generalizing taken next with
  | nil => exact ⟨[], rfl⟩
  | cons p rest ih =>
      rw [List.length_cons] at enough
      unfold seatPartitions
      cases own : p.slot with
      | some slot =>
          rw [List.filterMap_cons_some own, List.length_cons] at enough
          obtain ⟨slots, seated⟩ : ∃ slots, seatPartitions rest taken next = .ok slots :=
            ih (by omega)
          exact ⟨slot :: slots, by simp only [seated, ok_bind, pure_eq_ok]⟩
      | none =>
          rw [List.filterMap_cons_none own] at enough
          have slotted := List.length_filterMap_le Partition.slot rest
          obtain ⟨inside, left⟩ := nextFreeSeat_of_free (by omega : 0 < freeSeats (taken.drop next))
          obtain ⟨slots, seated⟩ : ∃ slots, seatPartitions rest
              (taken.set (nextFreeSeat taken next) true) (nextFreeSeat taken next) = .ok slots :=
            ih (by omega)
          refine ⟨UInt32.ofNat (nextFreeSeat taken next) :: slots, ?_⟩
          simp only [if_neg (Nat.ne_of_lt inside), seated, ok_bind, pure_eq_ok]

/-- Slots that are distinct and inside the table can be claimed, the reserved ones first. -/
theorem exists_claims (first second : String) {preTaken recorded : List UInt32} {n : Nat}
    (distinct : (preTaken ++ recorded).Nodup)
    (bounded : ∀ slot ∈ preTaken ++ recorded, slot.toNat < n) :
    ∃ reserved taken, claimSlots first preTaken (List.replicate n false) = .ok reserved ∧
      claimSlots second recorded reserved = .ok taken ∧
      freeSeats taken + (preTaken.length + recorded.length) = n := by
  rw [List.nodup_append] at distinct
  obtain ⟨reservedDistinct, ownDistinct, apart⟩ := distinct
  have empty : ∀ slot ∈ preTaken ++ recorded,
      (List.replicate n false)[slot.toNat]? = some false := by
    intro slot member
    rw [List.getElem?_replicate, if_pos (bounded slot member)]
  obtain ⟨reserved, reserving, reservedLeft⟩ := exists_claimSlots first reservedDistinct
    fun slot member => empty slot (List.mem_append_left _ member)
  obtain ⟨_, _, reservedLength, flags⟩ := claimSlots_eq_ok reserving
  have stillFree : ∀ slot ∈ recorded, reserved[slot.toNat]? = some false := by
    intro slot member
    have inside : slot.toNat < reserved.length := by
      rw [reservedLength, List.length_replicate]
      exact bounded slot (List.mem_append_right _ member)
    have untaken : reserved[slot.toNat]? ≠ some true := by
      intro claimed
      rcases (flags slot.toNat).mp claimed with before | ⟨other, present, same⟩
      · rw [empty slot (List.mem_append_right _ member)] at before
        cases before
      · exact apart other present slot member (UInt32.toNat_inj.mp same)
    rw [List.getElem?_eq_getElem inside] at untaken ⊢
    simpa using untaken
  obtain ⟨taken, claiming, ownLeft⟩ := exists_claimSlots second ownDistinct stillFree
  have total : freeSeats (List.replicate n false) = n := by simp [freeSeats]
  exact ⟨reserved, taken, reserving, claiming, by omega⟩

/-- Slots that are distinct, inside the table and few enough never stop an assignment. -/
theorem exists_assignSlots {partitions : List Partition} {numEntries : UInt32}
    {preTaken : List UInt32}
    (distinct : (preTaken ++ partitions.filterMap Partition.slot).Nodup)
    (bounded : ∀ slot ∈ preTaken ++ partitions.filterMap Partition.slot,
      slot.toNat < numEntries.toNat)
    (room : partitions.length + preTaken.length ≤ numEntries.toNat) :
    ∃ slots, assignSlotsWithTaken partitions numEntries preTaken = .ok slots := by
  obtain ⟨reserved, taken, reserving, claiming, left⟩ := exists_claims
    "reserved entry slot past the end of the table" "partition slot past the end of the table"
    distinct bounded
  obtain ⟨slots, seated⟩ := exists_seatPartitions (by rw [List.drop_zero]; omega :
    partitions.length ≤ freeSeats (taken.drop 0) + (partitions.filterMap Partition.slot).length)
  exact ⟨slots, by rw [assignSlotsWithTaken, reserving, ok_bind, claiming, ok_bind, seated]⟩

/-- Partitions without slots are seated whenever the table has enough of them. -/
theorem assignSlots_fresh {partitions : List Partition} {numEntries : UInt32}
    (fresh : ∀ p ∈ partitions, p.slot = none) (room : partitions.length ≤ numEntries.toNat) :
    ∃ slots, assignSlotsWithTaken partitions numEntries [] = .ok slots := by
  have unclaimed : partitions.filterMap Partition.slot = [] := by
    rw [List.filterMap_eq_nil_iff]
    exact fresh
  refine exists_assignSlots ?_ ?_ room
  · rw [unclaimed]
    exact List.nodup_nil
  · rw [unclaimed]
    simp

end DiskPartitions
