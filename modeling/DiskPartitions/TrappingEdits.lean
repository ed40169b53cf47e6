import DiskPartitions.GptCommitFrame
import DiskPartitions.PlannedSets
import DiskPartitions.TrappingWords

/-!
# Edits compiled with overflow checks

The three calls once more, as a build with overflow checks runs them: every
addition, subtraction and multiplication of words that the source writes with a
plain operator traps when it leaves the word.  None of them ever does, whatever the
set and the arguments, so the calls are those on wrapping words.
-/

namespace DiskPartitions

open CheckedWords Refusals TrappingWords FallibleState

/-! ## The calls -/

def alignUpTrapping (value align : UInt64) : Option UInt64 :=
  let rem := value % align
  if rem = 0 then some value else (checkedSub align rem).bind (checkedAdd value)

namespace GptGeometry

def arrayBytesTrapping (g : GptGeometry) : Option UInt64 :=
  checkedMul g.numEntries.toUInt64 g.entrySize.toUInt64

def arraySectorsTrapping (g : GptGeometry) : Option UInt64 :=
  g.arrayBytesTrapping.map (divCeil · sectorSize)

def backupReserveSectorsTrapping (g : GptGeometry) : Option UInt64 :=
  g.arraySectorsTrapping.bind (checkedAdd · 1)

/-- The refusals of a shape, given how many sectors its array has. -/
def checkShapeTrapping (g : GptGeometry) : Trapping Error Unit := do
  exact (refuseIf (g.numEntries = 0) (.invalid "a GPT with no entry slots"))
  exact (refuseIf (4096 < g.numEntries) (.invalid "a GPT with more than 4096 entry slots"))
  exact (refuseIf (4096 < g.entrySize) (.invalid "a GPT entry size above 4096 bytes"))
  exact (refuseIf (g.entrySize < GptLayout.entrySize)
    (.invalid "a GPT entry size below 128 bytes"))
  exact (refuseIf (¬ isEntrySize g.entrySize)
    (.invalid "a GPT entry size that is not 128 times a power of two"))
  exact (refuseIf (g.entryLba < 2)
    (.invalid "a GPT entry array starting at or before the header"))
  exact (refuseIf (maxLba < g.entryLba)
    (.invalid "a GPT entry array at an LBA whose byte offset does not fit a u64"))
  let arraySectors ← word g.arraySectorsTrapping
  exact (refuseIf (maxLba < arraySectors)
    (.invalid "a GPT entry array longer than any device could hold"))
  exact (refuseIf ((checkedAdd g.entryLba arraySectors).all (decide <| maxLba < ·) = true)
    (.invalid "a GPT whose entry array ends past the last addressable LBA"))

def usableRangeTrapping (g : GptGeometry) (totalSectors : UInt64) :
    Trapping Error (UInt64 × UInt64) := do
  g.checkShapeTrapping
  let arraySectors ← word g.arraySectorsTrapping
  let firstPossible ← word (checkedAdd g.entryLba arraySectors)
  let reserve ← word g.backupReserveSectorsTrapping
  let needed ← word (checkedAdd firstPossible reserve)
  exact (refuseIf (totalSectors ≤ needed) .deviceTooSmall)
  let lastLba ← word (checkedSub totalSectors 1)
  let lastPossible ← word (checkedSub lastLba reserve)
  match g.declaredUsable with
  | none => return (firstPossible, lastPossible)
  | some (first, last) => do
      exact (refuseIf (first < firstPossible)
        (.invalid "the table's first usable LBA is inside its own entry array"))
      exact (refuseIf (lastPossible < last)
        (.invalid "the table's last usable LBA is inside the space the backup copy needs"))
      exact (refuseIf (last < first) (.invalid "the table's usable range runs backwards"))
      return (first, last)

end GptGeometry

def Partition.sectorSpanTrapping (p : Partition) : Trapping Error (UInt64 × UInt64) :=
  if p.length = 0 then exact (.error (.invalid "a partition has no last sector"))
  else do
    let stop ← exact (orRefuse (checkedAdd p.start p.length)
      (.invalid "a partition's start and length overflow a u64"))
    let lastByte ← word (checkedSub stop 1)
    return (p.start / sectorSize, lastByte / sectorSize)

/-- The range of a reserved entry; the outer `none` is a trap. -/
def ReservedEntry.spanTrapping (r : ReservedEntry) : Option (Option (UInt64 × UInt64)) :=
  if r.typeByte = MbrTypes.gptProtective then some none
  else
    let start := r.field MbrLayout.startLba
    let count := r.field MbrLayout.sectorCount
    if count ≠ 0 then
      ((checkedAdd start count).bind (checkedSub · 1)).map fun last => some (start, last)
    else some none

namespace PartitionSet

/-- An error of the geometry is an inverted range; a trap stays a trap. -/
def usableRangeTrapping (set : PartitionSet) : Option (UInt64 × UInt64) :=
  let totalSectors := set.diskSize / sectorSize
  match set.tableKind with
  | .gpt =>
      match (set.gptGeometry.usableRangeTrapping totalSectors).run with
      | none => none
      | some (.ok range) => some range
      | some (.error _) =>
          (checkedSub GptLayout.firstUsableLba 1).map fun last =>
            (GptLayout.firstUsableLba, last)
  | .mbr =>
      if totalSectors < 2 then some (1, 0)
      else (checkedSub totalSectors 1).map fun last => (1, min last mbrLbaMax)

def occupiedSpansTrapping (set : PartitionSet) (skip : Option Nat) :
    Trapping Error (List (UInt64 × UInt64)) := do
  let spans ← (set.otherPartitions skip).mapM Partition.sectorSpanTrapping
  if set.tableKind = .mbr then
    let reserved ← word (set.reserved.mapM ReservedEntry.spanTrapping)
    return spans ++ reserved.filterMap id
  else return spans

def walkSpansTrapping (lengthSectors lastUsable : UInt64) :
    List (UInt64 × UInt64) → UInt64 → Trapping Error UInt64
  | [], cursor =>
      if saturatingSub (saturatingAdd cursor lengthSectors) 1 ≤ lastUsable then
        exact (.ok cursor)
      else exact (.error (.invalid "no free space large enough"))
  | (pStart, pEnd) :: rest, cursor =>
      let wantedEnd := saturatingSub (saturatingAdd cursor lengthSectors) 1
      if wantedEnd < pStart ∧ wantedEnd ≤ lastUsable then exact (.ok cursor)
      else do
        let past ← word ((checkedAdd pEnd 1).bind (alignUpTrapping · alignmentSectors))
        walkSpansTrapping lengthSectors lastUsable rest (max cursor past)

def findFreeTrapping (set : PartitionSet) (lengthSectors firstUsable lastUsable : UInt64) :
    Trapping Error UInt64 := do
  let spans ← set.occupiedSpansTrapping none
  let cursor ← word (alignUpTrapping firstUsable alignmentSectors)
  walkSpansTrapping lengthSectors lastUsable (spans.insertionSort SpanLe) cursor

def chooseStartTrapping (set : PartitionSet) (startHint : Option UInt64)
    (lengthSectors firstUsable lastUsable : UInt64) : Trapping Error UInt64 :=
  match startHint with
  | some byte =>
      word (alignUpTrapping (max (divCeil byte sectorSize) firstUsable) alignmentSectors)
  | none => set.findFreeTrapping lengthSectors firstUsable lastUsable

def placeTrapping (set : PartitionSet) (startHint : Option UInt64) (length : UInt64)
    (typeId : PartitionTypeId) (label : Option String) (drawn : Bytes16) :
    Trapping Error Partition := do
  exact (refuseIf (length = 0) (.invalid "zero length"))
  exact (refuseIf (set.tableKind = .mbr ∧
      MbrLayout.entryCount ≤ set.partitions.length + set.reserved.length)
    (.invalid "MBR primary table is full (4 entries)"))
  exact (refuseIf (set.tableKind = .gpt ∧
      set.gptGeometry.numEntries.toNat ≤ set.partitions.length)
    (.invalid "the GPT's entry array is full"))
  let lengthSectors ← word (alignUpTrapping (divCeil length sectorSize) alignmentSectors)
  let usable ← word set.usableRangeTrapping
  exact (refuseIf (usable.2 < usable.1) .deviceTooSmall)
  let startLba ← set.chooseStartTrapping startHint lengthSectors usable.1 usable.2
  let sectorsPast ← word (checkedSub lengthSectors 1)
  let endLba ← exact (orRefuse (checkedAdd startLba sectorsPast)
    (.invalid "partition end overflows"))
  exact (refuseIf (usable.2 < endLba) (.invalid "partition extends past last usable LBA"))
  exact (refuseIf (set.tableKind = .mbr ∧ (mbrLbaMax < startLba ∨ mbrLbaMax < lengthSectors))
    (.invalid "partition exceeds MBR 32-bit LBA range"))
  let spans ← set.occupiedSpansTrapping none
  exact (refuseIf (∃ span ∈ spans, startLba ≤ span.2 ∧ span.1 ≤ endLba)
    (.invalid "partition overlaps existing entry"))
  let kind ← exact (set.newKind typeId)
  let start ← word (checkedMul startLba sectorSize)
  let bytes ← word (checkedMul lengthSectors sectorSize)
  return {
    start
    length := bytes
    kind
    label
    uuid := if set.tableKind = .gpt then some (randomUuid drawn) else none
    slot := none
    issues := 0
    availableLength := bytes }

/-- Which partition `resize` changes, and its new length in bytes. -/
def resizedTrapping (set : PartitionSet) (target : PartitionRef) (newLength : UInt64) :
    Trapping Error (Nat × UInt64) := do
  exact (refuseIf (newLength = 0) (.invalid "zero length"))
  let index ← exact (set.resolve target)
  let newLengthSectors ← word (alignUpTrapping (divCeil newLength sectorSize) alignmentSectors)
  let usable ← word set.usableRangeTrapping
  let p ← exact (orRefuse set.partitions[index]? (.invalid "index out of range"))
  let startLba := p.start / sectorSize
  let sectorsPast ← word (checkedSub newLengthSectors 1)
  let newEndLba ← exact (orRefuse (checkedAdd startLba sectorsPast)
    (.invalid "partition end overflows"))
  exact (refuseIf (usable.2 < newEndLba) (.invalid "resize extends past last usable LBA"))
  exact (refuseIf (set.tableKind = .mbr ∧ mbrLbaMax < newLengthSectors)
    (.invalid "resize exceeds MBR 32-bit LBA range"))
  let spans ← set.occupiedSpansTrapping (some index)
  exact (refuseIf (∃ span ∈ spans, startLba ≤ span.2 ∧ span.1 ≤ newEndLba)
    (.invalid "resize would overlap another partition"))
  let bytes ← word (checkedMul newLengthSectors sectorSize)
  return (index, bytes)

def refreshOverlapIssuesTrapping (set : PartitionSet) : Option PartitionSet :=
  if set.tableKind ≠ .gpt then some set
  else
    (set.partitions.mapM fun p : Partition => p.sectorSpanTrapping.run).map fun computed =>
      let spans := computed.zipIdx.filterMap fun entry =>
        entry.1.toOption.map fun span => (entry.2, span)
      let marks := (spans.map Prod.fst).zip (markOverlaps (spans.map Prod.snd))
      { set with
        partitions := marks.foldl (fun parts mark => parts.modify mark.1 (markOverlap mark.2))
          set.partitions }

end PartitionSet

namespace Edit

open PartitionSet

/-- What a call answers, and the set it leaves. -/
def call (set : PartitionSet) : Edit → Except Error Unit × PartitionSet
  | add startHint length typeId label drawn =>
      ((PartitionSet.add startHint length typeId label drawn).exec set).map
        (Except.map fun _ => ()) id
  | remove target => (PartitionSet.remove target).exec set
  | resize target newLength => (PartitionSet.resize target newLength).exec set

/-- The same call in a build with overflow checks, `none` being a trap. -/
def callTrapping (set : PartitionSet) : Edit → Option (Except Error Unit × PartitionSet)
  | add startHint length typeId label drawn =>
      (set.placeTrapping startHint length typeId label drawn).run.map fun
        | .ok part => (.ok (), { set with partitions := set.partitions ++ [part] })
        | .error error => (.error error, set)
  | remove target =>
      match set.resolve target with
      | .ok index =>
          { set with partitions := set.partitions.eraseIdx index }.refreshOverlapIssuesTrapping.map
            fun after => (.ok (), after)
      | .error error => some (.error error, set)
  | resize target newLength =>
      (set.resizedTrapping target newLength).run.bind fun
        | .ok (index, bytes) =>
            { set with
              partitions := set.partitions.modify index fun p =>
                { p with
                  length := bytes
                  issues := p.issues &&& ~~~ EntryIssue.pastLastUsable } }
              |>.refreshOverlapIssuesTrapping.map fun after => (.ok (), after)
        | .error error => some (.error error, set)

end Edit

/-! ## No call traps -/

/-- Rounding up to 1 MiB does not overflow on anything that counts sectors. -/
theorem alignUpTrapping_eq {value : UInt64} (small : value.toNat < 2 ^ 60) :
    alignUpTrapping value alignmentSectors = some (alignUp value alignmentSectors) := by
  obtain ⟨remainder, missing⟩ := toNat_alignment value
  have below : value.toNat % 2048 < 2048 := Nat.mod_lt _ (by decide)
  unfold alignUpTrapping alignUp
  simp only
  split
  · rfl
  · rw [checkedSub_of_le (by rw [remainder, toNat_alignmentSectors]; omega), Option.bind_some,
      checkedAdd_of_lt (by rw [missing]; omega)]

namespace GptGeometry

variable (g : GptGeometry)

theorem arrayBytesTrapping_eq : g.arrayBytesTrapping = some g.arrayBytes := by
  have count := g.numEntries.toNat_lt
  have size := g.entrySize.toNat_lt
  refine checkedMul_of_lt ?_
  rw [UInt32.toNat_toUInt64, UInt32.toNat_toUInt64]
  calc g.numEntries.toNat * g.entrySize.toNat ≤ (2 ^ 32 - 1) * (2 ^ 32 - 1) :=
        Nat.mul_le_mul (by omega) (by omega)
    _ < 2 ^ 64 := by decide

theorem arraySectorsTrapping_eq : g.arraySectorsTrapping = some g.arraySectors := by
  rw [arraySectorsTrapping, arrayBytesTrapping_eq]
  rfl

theorem backupReserveSectorsTrapping_eq :
    g.backupReserveSectorsTrapping = some g.backupReserveSectors := by
  have bytes := g.arrayBytes.toNat_lt
  have sectors := toNat_arraySectors g
  have one : (1 : UInt64).toNat = 1 := rfl
  rw [backupReserveSectorsTrapping, arraySectorsTrapping_eq, Option.bind_some]
  refine checkedAdd_of_lt ?_
  rw [sectors, one]
  omega

theorem checkShapeTrapping_eq : g.checkShapeTrapping = exact g.checkShape := by
  unfold checkShapeTrapping checkShape
  refine exact_bind rfl fun _ _ => ?_
  refine exact_bind rfl fun _ _ => ?_
  refine exact_bind rfl fun _ _ => ?_
  refine exact_bind rfl fun _ _ => ?_
  refine exact_bind rfl fun _ _ => ?_
  refine exact_bind rfl fun _ _ => ?_
  refine exact_bind rfl fun _ _ => ?_
  rw [word_bind g.arraySectorsTrapping_eq]
  exact exact_bind rfl fun _ _ => rfl

theorem usableRangeTrapping_eq (totalSectors : UInt64) :
    g.usableRangeTrapping totalSectors = exact (g.usableRange totalSectors) := by
  unfold usableRangeTrapping usableRange
  refine exact_bind g.checkShapeTrapping_eq fun _ shaped => ?_
  have shape := checkShape_eq_ok.mp shaped
  have first := toNat_firstPossible shape
  have reserve := toNat_backupReserveSectors shape
  have needed := toNat_firstPossible_add_reserve shape
  have bound := toNat_maxLba
  have stop := shape.end_le
  have one : (1 : UInt64).toNat = 1 := rfl
  rw [word_bind g.arraySectorsTrapping_eq, word_bind (checkedAdd_of_lt (by omega)),
    word_bind g.backupReserveSectorsTrapping_eq, word_bind (checkedAdd_of_lt (by omega))]
  refine exact_bind rfl fun _ enough => ?_
  have large := refuseIf_eq_ok.mp enough
  rw [UInt64.le_iff_toNat_le, needed] at large
  have last : (totalSectors - 1).toNat = totalSectors.toNat - 1 := by
    rw [toNat_sub_of_le (by omega), one]
  rw [word_bind (checkedSub_of_le (by omega)), word_bind (checkedSub_of_le (by omega))]
  dsimp only
  cases g.declaredUsable with
  | none => rfl
  | some declared =>
      refine exact_bind rfl fun _ _ => ?_
      refine exact_bind rfl fun _ _ => ?_
      refine exact_bind rfl fun _ _ => ?_
      rfl

end GptGeometry

theorem Partition.sectorSpanTrapping_eq (p : Partition) :
    p.sectorSpanTrapping = exact p.sectorSpan := by
  unfold sectorSpanTrapping sectorSpan
  split
  · rfl
  next nonzero =>
    have one : (1 : UInt64).toNat = 1 := rfl
    cases sum : checkedAdd p.start p.length with
    | none => rfl
    | some stop =>
        have value := checkedAdd_eq_some.mp sum
        have positive : 0 < p.length.toNat := by
          apply Nat.pos_of_ne_zero
          intro zero
          exact nonzero (UInt64.toNat_inj.mp zero)
        change (exact (.ok stop) >>= _) = _
        rw [exact_ok_bind, word_bind (checkedSub_of_le (by omega))]
        rfl

namespace ReservedEntry

theorem toNat_field_pos {r : ReservedEntry} {offset : Nat} (counted : r.field offset ≠ 0) :
    0 < (r.field offset).toNat := by
  apply Nat.pos_of_ne_zero
  intro zero
  exact counted (UInt64.toNat_inj.mp zero)

/-- The two fields of a range are half words, and their sum does not wrap. -/
theorem toNat_field_add (r : ReservedEntry) :
    (r.field MbrLayout.startLba + r.field MbrLayout.sectorCount).toNat =
      (r.field MbrLayout.startLba).toNat + (r.field MbrLayout.sectorCount).toNat := by
  have start := r.toNat_field_lt MbrLayout.startLba
  have count := r.toNat_field_lt MbrLayout.sectorCount
  exact toNat_add_of_lt (by omega)

/-- The range of an entry is the sectors it counts. -/
theorem toNat_span {r : ReservedEntry} {span : UInt64 × UInt64} (found : r.span = some span) :
    0 < (r.field MbrLayout.sectorCount).toNat ∧
      span.1.toNat = (r.field MbrLayout.startLba).toNat ∧
      span.2.toNat =
        (r.field MbrLayout.startLba).toNat + (r.field MbrLayout.sectorCount).toNat - 1 := by
  have start := r.toNat_field_lt MbrLayout.startLba
  have count := r.toNat_field_lt MbrLayout.sectorCount
  have one : (1 : UInt64).toNat = 1 := rfl
  simp only [ReservedEntry.span] at found
  split at found
  · cases found
  · split at found
    next counted =>
      have positive := toNat_field_pos counted
      have sum := r.toNat_field_add
      cases found
      refine ⟨positive, rfl, ?_⟩
      rw [toNat_sub_of_le (by omega), sum, one]
    · cases found

theorem span_lt {r : ReservedEntry} {span : UInt64 × UInt64} (found : r.span = some span) :
    span.2.toNat < 2 ^ 55 := by
  have start := r.toNat_field_lt MbrLayout.startLba
  have count := r.toNat_field_lt MbrLayout.sectorCount
  have bounds := toNat_span found
  omega

theorem spanTrapping_eq (r : ReservedEntry) : r.spanTrapping = some r.span := by
  have start := r.toNat_field_lt MbrLayout.startLba
  have count := r.toNat_field_lt MbrLayout.sectorCount
  have one : (1 : UInt64).toNat = 1 := rfl
  unfold spanTrapping span
  split
  · rfl
  · dsimp only
    split
    next counted =>
      have positive := toNat_field_pos counted
      have sum := r.toNat_field_add
      rw [checkedAdd_of_lt (by omega), Option.bind_some, checkedSub_of_le (by omega)]
      rfl
    · rfl

end ReservedEntry

namespace PartitionSet

variable (set : PartitionSet)

theorem usableRangeTrapping_eq : set.usableRangeTrapping = some set.usableRange := by
  unfold usableRangeTrapping usableRange
  dsimp only
  cases set.tableKind with
  | gpt =>
      simp only
      rw [GptGeometry.usableRangeTrapping_eq]
      cases set.gptGeometry.usableRange (set.diskSize / sectorSize) with
      | ok range => rfl
      | error error =>
          change (checkedSub GptLayout.firstUsableLba 1).map _ = _
          rw [checkedSub_of_le (by decide)]
          rfl
  | mbr =>
      simp only
      split
      · rfl
      next large =>
        have two : (2 : UInt64).toNat = 2 := rfl
        have one : (1 : UInt64).toNat = 1 := rfl
        rw [UInt64.lt_iff_toNat_lt, two] at large
        rw [checkedSub_of_le (by omega)]
        rfl

theorem mapM_spanTrapping (reserved : List ReservedEntry) :
    reserved.mapM ReservedEntry.spanTrapping = some (reserved.map ReservedEntry.span) := by
  induction reserved with
  | nil => rfl
  | cons r reserved ih =>
      rw [List.mapM_cons, r.spanTrapping_eq, ih]
      rfl

theorem occupiedSpansTrapping_eq (skip : Option Nat) :
    set.occupiedSpansTrapping skip = exact (set.occupiedSpans skip) := by
  unfold occupiedSpansTrapping occupiedSpans
  refine exact_bind (exact_mapM fun p _ => p.sectorSpanTrapping_eq) fun spans _ => ?_
  split
  · rw [word_bind (mapM_spanTrapping set.reserved), List.filterMap_map]
    rfl
  · rfl

/-- The sectors of a span have byte offsets. -/
theorem occupiedSpans_lt {set : PartitionSet} {skip : Option Nat}
    {spans : List (UInt64 × UInt64)} (occupied : set.occupiedSpans skip = .ok spans) :
    ∀ span ∈ spans, span.2.toNat < 2 ^ 55 := by
  obtain ⟨computed, mapped, same⟩ := bind_eq_ok.mp occupied
  have own : ∀ span ∈ computed, span.2.toNat < 2 ^ 55 := by
    intro span member
    obtain ⟨p, _, found⟩ := Slices.exists_of_mem_right (mapM_eq_ok mapped) member
    obtain ⟨_, bounded, _, last⟩ := Partition.sectorSpan_eq_ok.mp found
    omega
  cases same
  split
  · intro span member
    rcases List.mem_append.mp member with listed | kept
    · exact own span listed
    · obtain ⟨r, _, found⟩ := List.mem_filterMap.mp kept
      exact ReservedEntry.span_lt found
  · exact own

theorem walkSpansTrapping_eq (lengthSectors lastUsable : UInt64)
    {spans : List (UInt64 × UInt64)} (bounded : ∀ span ∈ spans, span.2.toNat < 2 ^ 55)
    (cursor : UInt64) :
    walkSpansTrapping lengthSectors lastUsable spans cursor =
      exact (walkSpans lengthSectors lastUsable spans cursor) := by
  induction spans generalizing cursor with
  | nil =>
      unfold walkSpansTrapping walkSpans
      split
      · rfl
      · rfl
  | cons span spans ih =>
      have inside := bounded span (by simp)
      have one : (1 : UInt64).toNat = 1 := rfl
      have past : (span.2 + 1).toNat = span.2.toNat + 1 := toNat_add_of_lt (by omega)
      have next : (checkedAdd span.2 1).bind (alignUpTrapping · alignmentSectors) =
          some (alignUp (span.2 + 1) alignmentSectors) := by
        rw [checkedAdd_of_lt (by omega), Option.bind_some, alignUpTrapping_eq (by omega)]
      unfold walkSpansTrapping walkSpans
      dsimp only
      split
      · rfl
      · rw [word_bind next]
        exact ih (fun other member => bounded other (by simp [member])) _

theorem findFreeTrapping_eq (lengthSectors : UInt64) {firstUsable : UInt64}
    (small : firstUsable.toNat < 2 ^ 55) (lastUsable : UInt64) :
    set.findFreeTrapping lengthSectors firstUsable lastUsable =
      exact (set.findFree lengthSectors firstUsable lastUsable) := by
  unfold findFreeTrapping findFree
  refine exact_bind (set.occupiedSpansTrapping_eq none) fun spans occupied => ?_
  rw [word_bind (alignUpTrapping_eq (by omega))]
  refine walkSpansTrapping_eq lengthSectors lastUsable (fun span member => ?_) _
  exact occupiedSpans_lt occupied span ((List.perm_insertionSort _ _).mem_iff.mp member)

theorem chooseStartTrapping_eq (startHint : Option UInt64) (lengthSectors : UInt64)
    {firstUsable : UInt64} (small : firstUsable.toNat < 2 ^ 55) (lastUsable : UInt64) :
    set.chooseStartTrapping startHint lengthSectors firstUsable lastUsable =
      exact (set.chooseStart startHint lengthSectors firstUsable lastUsable) := by
  cases startHint with
  | none => exact set.findFreeTrapping_eq lengthSectors small lastUsable
  | some byte =>
      have bound := byte.toNat_lt
      have sectors := toNat_divCeil_sector byte
      have raised : (max (divCeil byte sectorSize) firstUsable).toNat < 2 ^ 60 := by
        rw [UInt64.max_def]
        split
        · omega
        · omega
      change word (alignUpTrapping _ _) = _
      rw [alignUpTrapping_eq raised]
      rfl

theorem lengthSectorsTrapping_eq (length : UInt64) :
    alignUpTrapping (divCeil length sectorSize) alignmentSectors =
      some (alignUp (divCeil length sectorSize) alignmentSectors) := by
  have bound := length.toNat_lt
  have sectors := toNat_divCeil_sector length
  exact alignUpTrapping_eq (by omega)

theorem placeTrapping_eq (startHint : Option UInt64) (length : UInt64)
    (typeId : PartitionTypeId) (label : Option String) (drawn : Bytes16) :
    set.placeTrapping startHint length typeId label drawn =
      exact (set.place startHint length typeId label drawn) := by
  have last := set.usableRange_lt
  have one : (1 : UInt64).toNat = 1 := rfl
  unfold placeTrapping place
  refine exact_bind rfl fun _ checked => ?_
  have positive := sectors_pos (refuseIf_eq_ok.mp checked)
  refine exact_bind rfl fun _ _ => ?_
  refine exact_bind rfl fun _ _ => ?_
  rw [word_bind (lengthSectorsTrapping_eq length), word_bind set.usableRangeTrapping_eq]
  refine exact_bind rfl fun _ checked => ?_
  have ordered := refuseIf_eq_ok.mp checked
  rw [UInt64.lt_iff_toNat_lt] at ordered
  refine exact_bind (set.chooseStartTrapping_eq _ _ (by omega) _) fun startLba _ => ?_
  have sectorsPast := toNat_sub_of_le (a := alignUp (divCeil length sectorSize)
    alignmentSectors) (b := 1) (by omega)
  rw [word_bind (checkedSub_of_le (by omega))]
  refine exact_bind rfl fun endLba stop => ?_
  have sum := checkedAdd_eq_some.mp (orRefuse_eq_ok.mp stop)
  refine exact_bind rfl fun _ checked => ?_
  have inside := refuseIf_eq_ok.mp checked
  rw [UInt64.lt_iff_toNat_lt] at inside
  refine exact_bind rfl fun _ _ => ?_
  refine exact_bind (set.occupiedSpansTrapping_eq none) fun spans _ => ?_
  refine exact_bind rfl fun _ _ => ?_
  refine exact_bind rfl fun kind _ => ?_
  rw [word_bind (checkedMul_of_lt (by rw [toNat_sectorSize]; omega)),
    word_bind (checkedMul_of_lt (by rw [toNat_sectorSize]; omega))]
  rfl

theorem resizedTrapping_eq (target : PartitionRef) (newLength : UInt64) :
    set.resizedTrapping target newLength =
      exact (set.resized target newLength >>= fun found =>
        .ok (found.1, found.2 * sectorSize)) := by
  have last := set.usableRange_lt
  have one : (1 : UInt64).toNat = 1 := rfl
  unfold resizedTrapping resized
  simp only [bind_assoc]
  refine exact_bind rfl fun _ checked => ?_
  have positive := sectors_pos (refuseIf_eq_ok.mp checked)
  refine exact_bind rfl fun index _ => ?_
  rw [word_bind (lengthSectorsTrapping_eq newLength), word_bind set.usableRangeTrapping_eq]
  refine exact_bind rfl fun p _ => ?_
  have sectorsPast := toNat_sub_of_le (a := alignUp (divCeil newLength sectorSize)
    alignmentSectors) (b := 1) (by omega)
  rw [word_bind (checkedSub_of_le (by omega))]
  refine exact_bind rfl fun endLba stop => ?_
  have sum := checkedAdd_eq_some.mp (orRefuse_eq_ok.mp stop)
  refine exact_bind rfl fun _ checked => ?_
  have inside := refuseIf_eq_ok.mp checked
  rw [UInt64.lt_iff_toNat_lt] at inside
  refine exact_bind rfl fun _ _ => ?_
  refine exact_bind (set.occupiedSpansTrapping_eq (some index)) fun spans _ => ?_
  refine exact_bind rfl fun _ _ => ?_
  rw [word_bind (checkedMul_of_lt (by rw [toNat_sectorSize]; omega))]
  rfl

theorem refreshOverlapIssuesTrapping_eq :
    set.refreshOverlapIssuesTrapping = some set.refreshOverlapIssues := by
  have computed : (set.partitions.mapM fun p : Partition => p.sectorSpanTrapping.run) =
      some (set.partitions.map Partition.sectorSpan) := by
    induction set.partitions with
    | nil => rfl
    | cons p rest ih =>
        rw [List.mapM_cons, ih, p.sectorSpanTrapping_eq]
        rfl
  unfold refreshOverlapIssuesTrapping refreshOverlapIssues
  split
  · rfl
  · rw [computed, Option.map_some, List.zipIdx_map, List.filterMap_map]
    rfl

end PartitionSet

/-- No call traps, whatever the set and the arguments. -/
theorem Edit.callTrapping_eq (set : PartitionSet) (edit : Edit) :
    edit.callTrapping set = some (edit.call set) := by
  cases edit with
  | add startHint length typeId label drawn =>
      rw [callTrapping, call, PartitionSet.placeTrapping_eq, PartitionSet.exec_add]
      cases set.place startHint length typeId label drawn <;> rfl
  | remove target =>
      rw [callTrapping, call, PartitionSet.exec_remove]
      cases set.resolve target with
      | error error => rfl
      | ok index =>
          simp only [PartitionSet.refreshOverlapIssuesTrapping_eq, Option.map_some]
  | resize target newLength =>
      rw [callTrapping, call, PartitionSet.resizedTrapping_eq, PartitionSet.exec_resize]
      cases set.resized target newLength with
      | error error => rfl
      | ok found =>
          change Option.map _ (PartitionSet.refreshOverlapIssuesTrapping _) = _
          rw [PartitionSet.refreshOverlapIssuesTrapping_eq]
          rfl

end DiskPartitions
