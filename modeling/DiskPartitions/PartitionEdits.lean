import DiskPartitions.PartitionSets

/-!
# What an edit can do

A call either leaves the set alone, appends a placed partition, drops one, or
gives one a new length; beyond that only issue bits change.  An invariant of the
three changes is therefore an invariant of every run.
-/

namespace DiskPartitions

open Slices CheckedWords Refusals FallibleState

/-! ## Issue bits -/

/-- The partition with its issue bits cleared. -/
def Partition.withoutIssues (p : Partition) : Partition := { p with issues := 0 }

namespace PartitionSet

/-- Refreshing the overlap bits keeps whatever does not see that bit. -/
theorem map_refresh {γ : Type} {view : Partition → γ}
    (ignores : ∀ overlaps p, view (markOverlap overlaps p) = view p) (set : PartitionSet) :
    set.refreshOverlapIssues.partitions.map view = set.partitions.map view := by
  have modified (parts : List Partition) (i : Nat) (overlaps : Bool) :
      (parts.modify i (markOverlap overlaps)).map view = parts.map view := by
    apply List.ext_getElem?
    intro j
    rw [List.getElem?_map, List.getElem?_map, List.getElem?_modify]
    cases parts[j]? with
    | none => rfl
    | some p =>
        simp only [Option.map_some]
        split
        · exact congrArg some (ignores overlaps p)
        · rfl
  have marked : ∀ (marks : List (Nat × Bool)) (parts : List Partition),
      (marks.foldl (fun parts mark => parts.modify mark.1 (markOverlap mark.2)) parts).map
        view = parts.map view := by
    intro marks
    induction marks with
    | nil => intro parts; rfl
    | cons mark marks ih =>
        intro parts
        rw [List.foldl_cons, ih, modified]
  unfold refreshOverlapIssues
  split
  · rfl
  · exact marked _ _

/-- Refreshing the overlap bits changes nothing but issues. -/
theorem map_withoutIssues_refresh (set : PartitionSet) :
    set.refreshOverlapIssues.partitions.map Partition.withoutIssues =
      set.partitions.map Partition.withoutIssues :=
  map_refresh (fun _ _ => rfl) set

@[simp]
theorem tableKind_refresh (set : PartitionSet) :
    set.refreshOverlapIssues.tableKind = set.tableKind := by
  unfold refreshOverlapIssues
  split <;> rfl

@[simp]
theorem diskSize_refresh (set : PartitionSet) :
    set.refreshOverlapIssues.diskSize = set.diskSize := by
  unfold refreshOverlapIssues
  split <;> rfl

@[simp]
theorem gptGeometry_refresh (set : PartitionSet) :
    set.refreshOverlapIssues.gptGeometry = set.gptGeometry := by
  unfold refreshOverlapIssues
  split <;> rfl

@[simp]
theorem reserved_refresh (set : PartitionSet) :
    set.refreshOverlapIssues.reserved = set.reserved := by
  unfold refreshOverlapIssues
  split <;> rfl

/-- What does not look at issues holds after a refresh when it held before. -/
theorem forall_refresh {P : Partition → Prop} (set : PartitionSet)
    (ignores : ∀ p, P p.withoutIssues ↔ P p) (held : ∀ p ∈ set.partitions, P p) :
    ∀ p ∈ set.refreshOverlapIssues.partitions, P p := by
  intro p member
  have cleared : p.withoutIssues ∈ set.partitions.map Partition.withoutIssues := by
    rw [← map_withoutIssues_refresh]
    exact List.mem_map_of_mem member
  obtain ⟨q, present, same⟩ := List.mem_map.mp cleared
  rw [← ignores p, ← same, ignores q]
  exact held q present

/-! ## One call -/

variable {set : PartitionSet}

/-- What the checks of `add` leave: a partition over the sectors `startLba` to `endLba`. -/
structure Placed (set : PartitionSet) (startHint : Option UInt64) (lengthSectors : UInt64)
    (typeId : PartitionTypeId) (p : Partition) (startLba endLba : UInt64) : Prop where
  mbr_room : set.tableKind = .mbr →
    set.partitions.length + set.reserved.length < MbrLayout.entryCount
  gpt_room : set.tableKind = .gpt → set.partitions.length < set.gptGeometry.numEntries.toNat
  range : set.usableRange.1 ≤ set.usableRange.2
  chosen : set.chooseStart startHint lengthSectors set.usableRange.1 set.usableRange.2 =
    .ok startLba
  stop : checkedAdd startLba (lengthSectors - 1) = some endLba
  inside : endLba ≤ set.usableRange.2
  narrow : set.tableKind = .mbr → startLba ≤ mbrLbaMax ∧ lengthSectors ≤ mbrLbaMax
  clear : ∃ spans, set.occupiedSpans none = .ok spans ∧
    ∀ span ∈ spans, ¬ (startLba ≤ span.2 ∧ span.1 ≤ endLba)
  start : p.start = startLba * sectorSize
  length : p.length = lengthSectors * sectorSize
  kind : set.newKind typeId = .ok p.kind
  uuid : set.tableKind = .gpt → ∃ uuid, p.uuid = some uuid
  slot : p.slot = none

theorem place_eq_ok {startHint : Option UInt64} {length : UInt64} {typeId : PartitionTypeId}
    {label : Option String} {drawn : Bytes16} {p : Partition}
    (placed : set.place startHint length typeId label drawn = .ok p) :
    length ≠ 0 ∧ ∃ startLba endLba,
      Placed set startHint (alignUp (divCeil length sectorSize) alignmentSectors) typeId p
        startLba endLba := by
  unfold place at placed
  obtain ⟨positive, placed⟩ := refuseIf_bind_eq_ok.mp placed
  obtain ⟨mbrRoom, placed⟩ := refuseIf_bind_eq_ok.mp placed
  obtain ⟨gptRoom, placed⟩ := refuseIf_bind_eq_ok.mp placed
  obtain ⟨range, placed⟩ := refuseIf_bind_eq_ok.mp placed
  obtain ⟨startLba, chosen, placed⟩ := bind_eq_ok.mp placed
  obtain ⟨endLba, stop, placed⟩ := bind_eq_ok.mp placed
  obtain ⟨inside, placed⟩ := refuseIf_bind_eq_ok.mp placed
  obtain ⟨narrow, placed⟩ := refuseIf_bind_eq_ok.mp placed
  obtain ⟨spans, computed, placed⟩ := bind_eq_ok.mp placed
  obtain ⟨clear, placed⟩ := refuseIf_bind_eq_ok.mp placed
  obtain ⟨kind, made, placed⟩ := bind_eq_ok.mp placed
  cases placed
  refine ⟨positive, startLba, endLba, ?_⟩
  exact {
    mbr_room := fun mbr => Nat.lt_of_not_le fun full => mbrRoom ⟨mbr, full⟩
    gpt_room := fun gpt => Nat.lt_of_not_le fun full => gptRoom ⟨gpt, full⟩
    range := UInt64.not_lt.mp range
    chosen
    stop := orRefuse_eq_ok.mp stop
    inside := UInt64.not_lt.mp inside
    narrow := fun mbr => by
      rw [not_and, not_or, UInt64.not_lt, UInt64.not_lt] at narrow
      exact narrow mbr
    clear := ⟨spans, computed, fun span member meets => clear ⟨span, member, meets⟩⟩
    start := rfl
    length := rfl
    kind := made
    uuid := fun gpt => ⟨_, if_pos gpt⟩
    slot := rfl }

/-- A new partition is without issues, and in a GPT has the UUID minted for it. -/
theorem origin_of_place {startHint : Option UInt64} {length : UInt64} {typeId : PartitionTypeId}
    {label : Option String} {drawn : Bytes16} {p : Partition}
    (placed : set.place startHint length typeId label drawn = .ok p) :
    p.issues = 0 ∧ (set.tableKind = .gpt → p.uuid = some (randomUuid drawn)) := by
  unfold place at placed
  obtain ⟨_, placed⟩ := refuseIf_bind_eq_ok.mp placed
  obtain ⟨_, placed⟩ := refuseIf_bind_eq_ok.mp placed
  obtain ⟨_, placed⟩ := refuseIf_bind_eq_ok.mp placed
  obtain ⟨_, placed⟩ := refuseIf_bind_eq_ok.mp placed
  obtain ⟨_, _, placed⟩ := bind_eq_ok.mp placed
  obtain ⟨_, _, placed⟩ := bind_eq_ok.mp placed
  obtain ⟨_, placed⟩ := refuseIf_bind_eq_ok.mp placed
  obtain ⟨_, placed⟩ := refuseIf_bind_eq_ok.mp placed
  obtain ⟨_, _, placed⟩ := bind_eq_ok.mp placed
  obtain ⟨_, placed⟩ := refuseIf_bind_eq_ok.mp placed
  obtain ⟨_, _, placed⟩ := bind_eq_ok.mp placed
  cases placed
  exact ⟨rfl, fun gpt => if_pos gpt⟩

/-- What the checks of `resize` leave: the partition at `index` ends at `endLba`. -/
structure Resized (set : PartitionSet) (index : Nat) (sectors : UInt64) (p : Partition)
    (endLba : UInt64) : Prop where
  found : set.partitions[index]? = some p
  stop : checkedAdd (p.start / sectorSize) (sectors - 1) = some endLba
  inside : endLba ≤ set.usableRange.2
  narrow : set.tableKind = .mbr → sectors ≤ mbrLbaMax
  clear : ∃ spans, set.occupiedSpans (some index) = .ok spans ∧
    ∀ span ∈ spans, ¬ (p.start / sectorSize ≤ span.2 ∧ span.1 ≤ endLba)

theorem resized_eq_ok {target : PartitionRef} {newLength sectors : UInt64} {index : Nat}
    (computed : set.resized target newLength = .ok (index, sectors)) :
    newLength ≠ 0 ∧ sectors = alignUp (divCeil newLength sectorSize) alignmentSectors ∧
      ∃ p endLba, Resized set index sectors p endLba := by
  unfold resized at computed
  obtain ⟨positive, computed⟩ := refuseIf_bind_eq_ok.mp computed
  obtain ⟨_, _, computed⟩ := bind_eq_ok.mp computed
  obtain ⟨p, found, computed⟩ := bind_eq_ok.mp computed
  obtain ⟨endLba, stop, computed⟩ := bind_eq_ok.mp computed
  obtain ⟨inside, computed⟩ := refuseIf_bind_eq_ok.mp computed
  obtain ⟨narrow, computed⟩ := refuseIf_bind_eq_ok.mp computed
  obtain ⟨spans, occupied, computed⟩ := bind_eq_ok.mp computed
  obtain ⟨clear, computed⟩ := refuseIf_bind_eq_ok.mp computed
  cases computed
  refine ⟨positive, rfl, p, endLba, ?_⟩
  exact {
    found := orRefuse_eq_ok.mp found
    stop := orRefuse_eq_ok.mp stop
    inside := UInt64.not_lt.mp inside
    narrow := fun mbr => by
      rw [not_and, UInt64.not_lt] at narrow
      exact narrow mbr
    clear := ⟨spans, occupied, fun span member meets => clear ⟨span, member, meets⟩⟩ }

theorem exec_add (startHint : Option UInt64) (length : UInt64) (typeId : PartitionTypeId)
    (label : Option String) (drawn : Bytes16) :
    (add startHint length typeId label drawn).exec set =
      match set.place startHint length typeId label drawn with
      | .ok part => (.ok set.partitions.length,
          { set with partitions := set.partitions ++ [part] })
      | .error error => (.error error, set) := by
  unfold add
  rw [Fallible.exec_current_bind, Fallible.exec_ofExcept_bind]
  cases set.place startHint length typeId label drawn <;> rfl

theorem exec_remove (target : PartitionRef) :
    (remove target).exec set =
      match set.resolve target with
      | .ok index => (.ok (),
          { set with partitions := set.partitions.eraseIdx index }.refreshOverlapIssues)
      | .error error => (.error error, set) := by
  unfold remove
  rw [Fallible.exec_current_bind, Fallible.exec_ofExcept_bind]
  cases set.resolve target <;> rfl

theorem exec_resize (target : PartitionRef) (newLength : UInt64) :
    (resize target newLength).exec set =
      match set.resized target newLength with
      | .ok (index, sectors) => (.ok (),
          { set with
            partitions := set.partitions.modify index (setLength sectors) }.refreshOverlapIssues)
      | .error error => (.error error, set) := by
  unfold resize
  rw [Fallible.exec_current_bind, Fallible.exec_ofExcept_bind]
  cases set.resized target newLength <;> rfl

end PartitionSet

/-! ## Runs -/

namespace Edit

open PartitionSet

/-- Everything a call can do to a set. -/
theorem apply_cases (set : PartitionSet) (edit : Edit) :
    edit.apply set = set ∨
    (∃ startHint length typeId label drawn part,
      edit = .add startHint length typeId label drawn ∧
      set.place startHint length typeId label drawn = .ok part ∧
      edit.apply set = { set with partitions := set.partitions ++ [part] }) ∨
    (∃ index, edit.apply set =
      { set with partitions := set.partitions.eraseIdx index }.refreshOverlapIssues) ∨
    ∃ target newLength index sectors, set.resized target newLength = .ok (index, sectors) ∧
      edit.apply set = { set with
        partitions := set.partitions.modify index (setLength sectors) }.refreshOverlapIssues := by
  cases edit with
  | add startHint length typeId label drawn =>
      cases placed : set.place startHint length typeId label drawn with
      | error error => exact .inl (by rw [apply, exec_add, placed])
      | ok part =>
          exact .inr (.inl ⟨startHint, length, typeId, label, drawn, part, rfl, placed,
            by rw [apply, exec_add, placed]⟩)
  | remove target =>
      cases resolved : set.resolve target with
      | error error => exact .inl (by rw [apply, exec_remove, resolved])
      | ok index => exact .inr (.inr (.inl ⟨index, by rw [apply, exec_remove, resolved]⟩))
  | resize target newLength =>
      cases computed : set.resized target newLength with
      | error error => exact .inl (by rw [apply, exec_resize, computed])
      | ok result =>
          exact .inr (.inr (.inr ⟨target, newLength, result.1, result.2, computed,
            by rw [apply, exec_resize, computed]⟩))

/-- What holds of the kinds of a set and of every kind a call gives a new partition
holds of the kinds after the call. -/
theorem forall_kind_apply {P : PartitionKind → Prop} {set : PartitionSet} {edit : Edit}
    (held : ∀ p ∈ set.partitions, P p.kind)
    (given : ∀ startHint length typeId label drawn kind,
      edit = .add startHint length typeId label drawn → set.newKind typeId = .ok kind → P kind) :
    ∀ p ∈ (edit.apply set).partitions, P p.kind := by
  rcases apply_cases set edit with same | ⟨startHint, length, typeId, label, drawn, part, added,
    placed, same⟩ | ⟨index, same⟩ | ⟨_, _, index, sectors, _, same⟩
  · rw [same]
    exact held
  · rw [same]
    intro p member
    rcases List.mem_append.mp member with old | new
    · exact held p old
    · rw [List.mem_singleton.mp new]
      obtain ⟨_, _, _, found⟩ := place_eq_ok placed
      exact given startHint length typeId label drawn part.kind added found.kind
  · rw [same]
    refine forall_refresh (P := fun p => P p.kind) _ (fun _ => Iff.rfl) fun p member => ?_
    exact held p (List.mem_of_mem_eraseIdx member)
  · rw [same]
    refine forall_refresh (P := fun p => P p.kind) _ (fun _ => Iff.rfl) fun p member => ?_
    obtain ⟨i, bound, rfl⟩ := List.mem_iff_getElem.mp member
    rw [List.length_modify] at bound
    simp only [List.getElem_modify]
    split
    · exact held set.partitions[i] (List.getElem_mem bound)
    · exact held set.partitions[i] (List.getElem_mem bound)

/-- What every call of a run keeps holds after the run. -/
theorem applyAll_induction {P : PartitionSet → Prop} {edits : List Edit}
    (step : ∀ edit ∈ edits, ∀ set, P set → P (edit.apply set)) {set : PartitionSet}
    (start : P set) : P (applyAll edits set) := by
  induction edits generalizing set with
  | nil => exact start
  | cons edit edits ih =>
      exact ih (fun other member => step other (by simp [member]))
        (step edit (by simp) set start)

/-- What a call keeps of the set whatever it does. -/
structure SameTable (set other : PartitionSet) : Prop where
  tableKind : other.tableKind = set.tableKind
  diskSize : other.diskSize = set.diskSize
  gptGeometry : other.gptGeometry = set.gptGeometry
  reserved : other.reserved = set.reserved

theorem sameTable_apply (set : PartitionSet) (edit : Edit) :
    SameTable set (edit.apply set) := by
  rcases apply_cases set edit with same | ⟨_, _, _, _, _, part, _, _, same⟩ | ⟨index, same⟩ |
    ⟨_, _, index, sectors, _, same⟩
  · rw [same]
    exact ⟨rfl, rfl, rfl, rfl⟩
  · rw [same]
    exact ⟨rfl, rfl, rfl, rfl⟩
  · rw [same]
    exact ⟨by simp, by simp, by simp, by simp⟩
  · rw [same]
    exact ⟨by simp, by simp, by simp, by simp⟩

theorem SameTable.trans {first second third : PartitionSet} (left : SameTable first second)
    (right : SameTable second third) : SameTable first third :=
  ⟨right.tableKind.trans left.tableKind, right.diskSize.trans left.diskSize,
    right.gptGeometry.trans left.gptGeometry, right.reserved.trans left.reserved⟩

theorem sameTable_applyAll (set : PartitionSet) (edits : List Edit) :
    SameTable set (applyAll edits set) :=
  applyAll_induction (P := SameTable set)
    (fun edit _ other same => same.trans (sameTable_apply other edit)) ⟨rfl, rfl, rfl, rfl⟩

end Edit

end DiskPartitions
