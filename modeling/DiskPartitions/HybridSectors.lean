import DiskPartitions.MbrRoundTrip

/-!
# LBA 0 of a GPT disk

A commit merges the boot sector of a GPT disk from the sector on the disk, the entries
remembered when the set was read and a new `0xEE` marker.  This file says what the
merged sector holds, entry by entry, and what a second commit makes of it.
-/

namespace DiskPartitions

open Slices LittleEndian CheckedWords Refusals KeyOrder

/-! ## Which entries are kept -/

/-- An entry that mirrors a volume no partition matches. -/
def IsLostMirror (partitions : List Partition) (entry : List UInt8) : Prop :=
  entryRole (byteAt entry MbrLayout.typeByte) = .volume ∧
    (u32At entry MbrLayout.sectorCount).toUInt64 ≠ 0 ∧
    ¬ partitions.any (fun p => p.start = (u32At entry MbrLayout.startLba).toUInt64 * sectorSize ∧
      p.length = (u32At entry MbrLayout.sectorCount).toUInt64 * sectorSize)

instance (partitions : List Partition) (entry : List UInt8) :
    Decidable (IsLostMirror partitions entry) :=
  inferInstanceAs (Decidable (_ ∧ _))

/-- The entry is a GPT marker. -/
def ReservedEntry.IsMarker (e : ReservedEntry) : Prop := e.typeByte = MbrTypes.gptProtective

instance (e : ReservedEntry) : Decidable e.IsMarker := inferInstanceAs (Decidable (_ = _))

/-- The first GPT marker among the entries. -/
def firstMarker (lba0 : List ReservedEntry) : Option ReservedEntry :=
  lba0.find? fun e => e.IsMarker

/-- The entries a commit keeps byte for byte, once a marker was seen or not. -/
def keptFrom (rebuild : Bool) (partitions : List Partition) :
    Bool → List ReservedEntry → List ReservedEntry
  | _, [] => []
  | seen, e :: rest =>
      if e.IsMarker then
        if seen ∨ rebuild then keptFrom rebuild partitions true rest
        else e :: keptFrom rebuild partitions true rest
      else if IsLostMirror partitions e.entry.bytes then keptFrom rebuild partitions seen rest
      else e :: keptFrom rebuild partitions seen rest

section Kept

variable {rebuild seen : Bool} {partitions : List Partition} {lba0 : List ReservedEntry}

/-- The writer's loop puts back the entries it keeps and remembers the first marker. -/
theorem foldl_keepLba0Entry_eq (out : List UInt8) (marker : Option Nat) :
    lba0.foldl (keepLba0Entry rebuild partitions) (out, marker) =
      ((keptFrom rebuild partitions marker.isSome lba0).foldl keepReserved out,
        marker.or ((firstMarker lba0).map reservedIndex)) := by
  induction lba0 generalizing out marker with
  | nil => cases marker <;> rfl
  | cons e rest ih =>
      rw [List.foldl_cons, firstMarker, List.find?_cons]
      by_cases own : e.IsMarker
      · have type : e.typeByte = MbrTypes.gptProtective := own
        simp only [keepLba0Entry, type, if_true, keptFrom, own, decide_true]
        rw [ih]
        cases marker with
        | some first => simp
        | none => cases rebuild <;> simp [keepReserved, reservedIndex]
      · have type : e.typeByte ≠ MbrTypes.gptProtective := own
        simp only [keepLba0Entry, type, if_false, keptFrom, own, decide_false]
        have same : (entryRole e.typeByte = .volume ∧ e.field MbrLayout.sectorCount ≠ 0 ∧
            ¬ partitions.any (fun p =>
              p.start = e.field MbrLayout.startLba * sectorSize ∧
                p.length = e.field MbrLayout.sectorCount * sectorSize) = true) ↔
            IsLostMirror partitions e.entry.bytes := Iff.rfl
        by_cases lost : IsLostMirror partitions e.entry.bytes
        · rw [if_pos (same.mpr lost), if_pos lost, ih]
          rfl
        · rw [if_neg (fun held => lost (same.mp held)), if_neg lost, ih]
          rfl

theorem firstMarker_cons (head : ReservedEntry) (rest : List ReservedEntry) :
    firstMarker (head :: rest) = if head.IsMarker then some head else firstMarker rest := by
  rw [firstMarker, List.find?_cons]
  by_cases own : head.IsMarker
  · simp [own]
  · simp [own, firstMarker]

theorem mem_keptFrom {e : ReservedEntry} :
    e ∈ keptFrom rebuild partitions seen lba0 ↔ e ∈ lba0 ∧
      if e.IsMarker then seen = false ∧ rebuild = false ∧ firstMarker lba0 = some e
      else ¬ IsLostMirror partitions e.entry.bytes := by
  induction lba0 generalizing seen with
  | nil => simp [keptFrom]
  | cons head rest ih =>
      rw [keptFrom, firstMarker_cons]
      by_cases own : head.IsMarker
      · have differs : ¬ e.IsMarker → e ≠ head := fun other same => other (same ▸ own)
        rw [if_pos own, if_pos own]
        by_cases mark : e.IsMarker
        · by_cases off : seen = true ∨ rebuild = true
          · have both : ¬ (seen = false ∧ rebuild = false) := by
              rcases off with on | on <;> simp [on]
            simp only [if_pos off, ih, if_pos mark, Bool.true_eq_false, false_and, and_false,
              false_iff, not_and]
            exact fun _ first second _ => both ⟨first, second⟩
          · have both : seen = false ∧ rebuild = false := by simpa using off
            rw [if_neg off, List.mem_cons, ih, if_pos mark, if_pos mark, List.mem_cons]
            simp only [Bool.true_eq_false, false_and, and_false, or_false, both, true_and,
              Option.some.injEq]
            constructor
            · intro same
              exact ⟨.inl same, same.symm⟩
            · rintro ⟨_, same⟩
              exact same.symm
        · by_cases off : seen = true ∨ rebuild = true
          · rw [if_pos off, ih, if_neg mark, if_neg mark, List.mem_cons,
              or_iff_right (differs mark)]
          · rw [if_neg off, List.mem_cons, ih, if_neg mark, if_neg mark, List.mem_cons,
              or_iff_right (differs mark), or_iff_right (differs mark)]
      · have differs : e.IsMarker → e ≠ head := fun other same => own (same ▸ other)
        rw [if_neg own, if_neg own]
        by_cases lost : IsLostMirror partitions head.entry.bytes
        · rw [if_pos lost, ih, List.mem_cons]
          by_cases mark : e.IsMarker
          · rw [or_iff_right (differs mark)]
          · rw [if_neg mark]
            constructor
            · exact fun held => ⟨.inr held.1, held.2⟩
            · rintro ⟨rfl | later, kept⟩
              · exact absurd lost kept
              · exact ⟨later, kept⟩
        · rw [if_neg lost, List.mem_cons, ih, List.mem_cons]
          by_cases mark : e.IsMarker
          · rw [or_iff_right (differs mark), or_iff_right (differs mark)]
          · rw [if_neg mark]
            constructor
            · rintro (rfl | held)
              · exact ⟨.inl rfl, lost⟩
              · exact ⟨.inr held.1, held.2⟩
            · rintro ⟨rfl | later, kept⟩
              · exact .inl rfl
              · exact .inr ⟨later, kept⟩

theorem keptFrom_sublist : (keptFrom rebuild partitions seen lba0).Sublist lba0 := by
  induction lba0 generalizing seen with
  | nil => exact .slnil
  | cons e rest ih =>
      rw [keptFrom]
      split
      · split
        · exact ih.cons e
        · exact ih.cons_cons e
      · split
        · exact ih.cons e
        · exact ih.cons_cons e

end Kept

/-! ## The merged sector -/

/-- Entries as they are read off a sector: in slots of their own, and in use. -/
structure LegacyEntries (lba0 : List ReservedEntry) : Prop where
  distinct : (lba0.map reservedIndex).Nodup
  bounded : ∀ e ∈ lba0, reservedIndex e < MbrLayout.entryCount
  used : ∀ e ∈ lba0, e.typeByte ≠ MbrTypes.empty

theorem LegacyEntries.sublist {lba0 kept : List ReservedEntry} (legacy : LegacyEntries lba0)
    (sublist : kept.Sublist lba0) : LegacyEntries kept where
  distinct := legacy.distinct.sublist (sublist.map _)
  bounded := fun e member => legacy.bounded e (sublist.subset member)
  used := fun e member => legacy.used e (sublist.subset member)

/-- The sector a commit merges: the boot code that is there, the entries that are kept, and
a marker, old or new. -/
inductive MergedSector (current : List UInt8) (lba0 : List ReservedEntry) (protective : Bytes16)
    (partitions : List Partition) : (Nat → List UInt8) → Nat → Prop
  | old (m : ReservedEntry) (hybrid : isProtective current = false)
      (marker : firstMarker lba0 = some m) :
      MergedSector current lba0 protective partitions
        (keptBlock (keptFrom false partitions false lba0)) (reservedIndex m)
  | new (k : Nat) (place : k < MbrLayout.entryCount)
      (seat : (∃ m, firstMarker lba0 = some m ∧ reservedIndex m = k ∧
          isProtective current = true) ∨
        firstMarker lba0 = none ∧
          byteAt (keptBlock (keptFrom (isProtective current) partitions false lba0) k)
            MbrLayout.typeByte = MbrTypes.empty) :
      MergedSector current lba0 protective partitions
        (Function.update (keptBlock (keptFrom (isProtective current) partitions false lba0)) k
          protective.bytes) k

section Merging

variable {current : List UInt8} {lba0 : List ReservedEntry} {protective : Bytes16}
  {partitions : List Partition} (width : current.length = 512) (legacy : LegacyEntries lba0)

include width

omit legacy in
theorem length_current_boot :
    (slice current 0 MbrLayout.tableStart).length = MbrLayout.tableStart :=
  length_slice (by rw [width]; decide)

/-- The sector the writer's loop starts from. -/
theorem startSector_eq :
    splice (List.replicate 512 0) 0 (slice current 0 MbrLayout.tableStart) =
      mbrSector (slice current 0 MbrLayout.tableStart) (fun _ => emptyEntry) [0, 0] := by
  have rest : (List.replicate 512 (0 : UInt8)).drop MbrLayout.tableStart =
      blocks (fun _ => emptyEntry) MbrLayout.entryCount ++ [0, 0] := by
    have cleared : blocks (fun _ => emptyEntry) MbrLayout.entryCount =
        List.replicate (MbrLayout.entryCount * MbrLayout.entrySize) 0 := blocks_replicate _ _ _
    have two : [0, 0] = List.replicate 2 (0 : UInt8) := rfl
    rw [cleared, two, ← List.replicate_add, List.drop_replicate]
    rfl
  rw [splice_zero, length_current_boot width, rest, mbrSector, List.append_assoc]

include legacy

theorem kept_mbrSector (rebuild : Bool) :
    (keptFrom rebuild partitions false lba0).foldl keepReserved
        (mbrSector (slice current 0 MbrLayout.tableStart) (fun _ => emptyEntry) [0, 0]) =
      mbrSector (slice current 0 MbrLayout.tableStart)
        (keptBlock (keptFrom rebuild partitions false lba0)) [0, 0] := by
  have kept := legacy.sublist (@keptFrom_sublist rebuild false partitions lba0)
  rw [foldl_keepReserved (length_current_boot width) (fun _ _ => length_emptyEntry) kept.bounded]
  congr 1
  exact foldl_update _ _ kept.distinct

/-- What the writer's loop leaves before the marker is placed. -/
theorem hybridLba0_eq :
    hybridLba0 current lba0 protective partitions =
      (placeProtective (isProtective current) protective
        (mbrSector (slice current 0 MbrLayout.tableStart)
          (keptBlock (keptFrom (isProtective current) partitions false lba0)) [0, 0])
        ((firstMarker lba0).map reservedIndex)).map fun out => splice out 510 [0x55, 0xAA] := by
  have inside : ¬ lba0.any (fun entry => MbrLayout.entryCount ≤ entry.slot.toNat) = true := by
    simpa [reservedIndex] using legacy.bounded
  unfold hybridLba0
  simp only [refuseIf_of_not inside, ok_bind, startSector_eq width, foldl_keepLba0Entry_eq,
    Option.isSome_none, kept_mbrSector width legacy, Option.none_or]
  cases placeProtective (isProtective current) protective
    (mbrSector (slice current 0 MbrLayout.tableStart)
      (keptBlock (keptFrom (isProtective current) partitions false lba0)) [0, 0])
    ((firstMarker lba0).map reservedIndex) <;> rfl

omit width legacy in
/-- Putting an entry into a slot. -/
theorem splice_entry {boot signature entry : List UInt8} {block : Nat → List UInt8} {k : Nat}
    (bootLength : boot.length = MbrLayout.tableStart) (widths : EntryWidths block)
    (place : k < MbrLayout.entryCount) (whole : entry.length = MbrLayout.entrySize) :
    splice (mbrSector boot block signature) (MbrLayout.entryAt k) entry =
      mbrSector boot (Function.update block k entry) signature := by
  have spliced : splice (mbrSector boot block signature) (MbrLayout.entryAt k + 0) entry = _ :=
    splice_mbrSector bootLength widths place (by rw [whole]; decide)
  have covered : splice (block k) 0 entry = entry := by
    rw [splice_zero, whole, List.drop_eq_nil_of_le (by rw [widths k place]), List.append_nil]
  rw [covered] at spliced
  exact spliced

/-- A marker among the entries stays when the sector was hybrid, and is built anew when it
was not. -/
theorem hybridLba0_of_marker {m : ReservedEntry} (marker : firstMarker lba0 = some m) :
    hybridLba0 current lba0 protective partitions =
      .ok (mbrSector (slice current 0 MbrLayout.tableStart)
        (if isProtective current then
          Function.update (keptBlock (keptFrom true partitions false lba0)) (reservedIndex m)
            protective.bytes
        else keptBlock (keptFrom false partitions false lba0)) [0x55, 0xAA]) := by
  have bootLength := length_current_boot width
  have bound := legacy.bounded m (List.mem_of_find?_eq_some marker)
  rw [hybridLba0_eq width legacy, marker]
  cases isProtective current with
  | true =>
      have placed : placeProtective true protective
          (mbrSector (slice current 0 MbrLayout.tableStart)
            (keptBlock (keptFrom true partitions false lba0)) [0, 0])
          ((some m).map reservedIndex) =
          .ok (mbrSector (slice current 0 MbrLayout.tableStart)
            (Function.update (keptBlock (keptFrom true partitions false lba0)) (reservedIndex m)
              protective.bytes) [0, 0]) := by
        rw [← splice_entry bootLength (length_keptBlock _) bound protective.length_bytes]
        rfl
      rw [placed]
      exact congrArg Except.ok (splice_signature bootLength
        ((length_keptBlock _).update _ protective.length_bytes) rfl)
  | false =>
      exact congrArg Except.ok (splice_signature bootLength (length_keptBlock _) rfl)

/-- Whatever a commit merges is such a sector. -/
theorem merged_of_hybridLba0 {sector : List UInt8}
    (merged : hybridLba0 current lba0 protective partitions = .ok sector) :
    ∃ block k, MergedSector current lba0 protective partitions block k ∧
      sector = mbrSector (slice current 0 MbrLayout.tableStart) block [0x55, 0xAA] := by
  have bootLength := length_current_boot width
  cases marker : firstMarker lba0 with
  | some m =>
      have bound := legacy.bounded m (List.mem_of_find?_eq_some marker)
      rw [hybridLba0_of_marker width legacy marker] at merged
      cases hybrid : isProtective current with
      | true =>
          rw [hybrid, if_pos rfl] at merged
          refine ⟨_, _, .new (reservedIndex m) bound (.inl ⟨m, marker, rfl, hybrid⟩), ?_⟩
          rw [hybrid]
          exact (Except.ok.inj merged).symm
      | false =>
          rw [hybrid] at merged
          exact ⟨_, _, .old m hybrid marker, (Except.ok.inj merged).symm⟩
  | none =>
      rw [hybridLba0_eq width legacy, marker] at merged
      unfold placeProtective at merged
      simp only [Option.map_none, Option.isSome_none, Bool.and_false, Bool.false_eq_true, if_false,
        Option.none_or] at merged
      cases free : (List.range MbrLayout.entryCount).find? fun i =>
          typeByteAt (mbrSector (slice current 0 MbrLayout.tableStart)
            (keptBlock (keptFrom (isProtective current) partitions false lba0)) [0, 0]) i ==
              MbrTypes.empty with
      | none =>
          rw [free] at merged
          cases merged
      | some k =>
          have place := List.mem_range.mp (List.mem_of_find?_eq_some free)
          have empty := List.find?_some free
          rw [free] at merged
          rw [typeByteAt_mbrSector bootLength (length_keptBlock _) place, beq_iff_eq] at empty
          refine ⟨_, _, .new k place (.inr ⟨marker, empty⟩), ?_⟩
          rw [← Except.ok.inj merged, splice_entry bootLength (length_keptBlock _) place
            protective.length_bytes]
          exact splice_signature bootLength
            ((length_keptBlock _).update _ protective.length_bytes) rfl

end Merging

/-! ## Sectors a commit leaves -/

/-- One marker, and otherwise unused slots and entries that the next commit keeps. -/
structure Settled (partitions : List Partition) (block : Nat → List UInt8) (k : Nat) : Prop where
  widths : EntryWidths block
  place : k < MbrLayout.entryCount
  marker : byteAt (block k) MbrLayout.typeByte = MbrTypes.gptProtective
  others : ∀ i < MbrLayout.entryCount, i ≠ k → block i = emptyEntry ∨
    byteAt (block i) MbrLayout.typeByte ≠ MbrTypes.empty ∧
      byteAt (block i) MbrLayout.typeByte ≠ MbrTypes.gptProtective ∧
      ¬ IsLostMirror partitions (block i)

theorem keptBlock_cases (kept : List ReservedEntry) (i : Nat) :
    keptBlock kept i = emptyEntry ∨
      ∃ e ∈ kept, reservedIndex e = i ∧ keptBlock kept i = e.entry.bytes := by
  unfold keptBlock
  cases found : itemAt reservedIndex kept i with
  | none => exact .inl rfl
  | some e =>
      obtain ⟨member, index⟩ := key_of_itemAt found
      exact .inr ⟨e, member, index, rfl⟩

theorem keptBlock_of_mem {kept : List ReservedEntry} (distinct : (kept.map reservedIndex).Nodup)
    {e : ReservedEntry} (member : e ∈ kept) :
    keptBlock kept (reservedIndex e) = e.entry.bytes := by
  rw [keptBlock, itemAt_of_mem distinct member]
  rfl

theorem typeByte_emptyEntry : byteAt emptyEntry MbrLayout.typeByte = MbrTypes.empty := by decide

section Settled

variable {current : List UInt8} {lba0 : List ReservedEntry} {protective : Bytes16}
  {partitions : List Partition} {block : Nat → List UInt8} {k : Nat}

theorem isMarker_of_firstMarker {m : ReservedEntry} (first : firstMarker lba0 = some m) :
    m.IsMarker := by
  simpa using List.find?_some first

/-- The first marker of a sector is kept when the marker is not to be written anew. -/
theorem mem_keptFrom_firstMarker {m : ReservedEntry} (first : firstMarker lba0 = some m) :
    m ∈ keptFrom false partitions false lba0 := by
  rw [mem_keptFrom, if_pos (isMarker_of_firstMarker first)]
  exact ⟨List.mem_of_find?_eq_some first, rfl, rfl, first⟩

/-- What a commit merges is settled. -/
theorem settled_of_merged (legacy : LegacyEntries lba0)
    (marks : byteAt protective.bytes MbrLayout.typeByte = MbrTypes.gptProtective)
    (merged : MergedSector current lba0 protective partitions block k) :
    Settled partitions block k := by
  cases merged with
  | old m hybrid first =>
      have member := List.mem_of_find?_eq_some first
      have own := isMarker_of_firstMarker first
      have kept := legacy.sublist (@keptFrom_sublist false false partitions lba0)
      have held := @mem_keptFrom_firstMarker _ partitions _ first
      refine ⟨length_keptBlock _, legacy.bounded m member, ?_, fun i bound other => ?_⟩
      · rw [keptBlock_of_mem kept.distinct held]
        exact own
      · rcases keptBlock_cases (keptFrom false partitions false lba0) i with empty |
          ⟨e, present, index, bytes⟩
        · exact .inl empty
        · obtain ⟨listed, rule⟩ := mem_keptFrom.mp present
          split at rule
          next mark =>
            rw [first] at rule
            cases rule.2.2
            exact absurd index.symm other
          next mark =>
            rw [bytes]
            exact .inr ⟨legacy.used e listed, mark, rule⟩
  | new _ place seat =>
      refine ⟨(length_keptBlock _).update _ protective.length_bytes, place, ?_,
        fun i bound other => ?_⟩
      · rw [Function.update_self]
        exact marks
      · rw [Function.update_of_ne other]
        rcases keptBlock_cases (keptFrom (isProtective current) partitions false lba0) i with
          empty | ⟨e, present, index, bytes⟩
        · exact .inl empty
        · obtain ⟨listed, rule⟩ := mem_keptFrom.mp present
          split at rule
          next mark =>
            obtain ⟨_, hybrid, first⟩ := rule
            rcases seat with ⟨m, _, _, bare⟩ | ⟨absent, _⟩
            · rw [hybrid] at bare
              cases bare
            · rw [absent] at first
              cases first
          next mark =>
            rw [bytes]
            exact .inr ⟨legacy.used e listed, mark, rule⟩

/-- A sector with one marker is protective when nothing else is in use. -/
theorem isProtective_iff {sector : List UInt8} (place : k < MbrLayout.entryCount)
    (marker : typeByteAt sector k = MbrTypes.gptProtective) :
    isProtective sector = true ↔
      ∀ i < MbrLayout.entryCount, i ≠ k → typeByteAt sector i = MbrTypes.empty := by
  rw [isProtective_eq_true, List.filter_map]
  have listed : ∀ i, i ∈ (List.range MbrLayout.entryCount).filter
      ((· != MbrTypes.empty) ∘ typeByteAt sector) ↔
      i < MbrLayout.entryCount ∧ typeByteAt sector i ≠ MbrTypes.empty := by
    simp
  have own := (listed k).mpr ⟨place, by rw [marker]; decide⟩
  constructor
  · intro single i bound other
    obtain ⟨only, is⟩ := List.length_eq_one_iff.mp
      ((List.length_map _).symm.trans (congrArg List.length single))
    rw [is, List.mem_singleton] at own
    by_contra used
    have also := (listed i).mpr ⟨bound, used⟩
    rw [is, List.mem_singleton] at also
    exact other (also.trans own.symm)
  · intro empty
    have only : (List.range MbrLayout.entryCount).filter
        ((· != MbrTypes.empty) ∘ typeByteAt sector) = [k] := by
      refine List.perm_singleton.mp ((List.perm_ext_iff_of_nodup
        (List.nodup_range.filter _) (List.nodup_singleton k)).mpr fun i => ?_)
      rw [List.mem_singleton]
      constructor
      · intro member
        obtain ⟨bound, used⟩ := (listed i).mp member
        by_contra other
        exact used (empty i bound other)
      · rintro rfl
        exact own
    rw [only, List.map_singleton, marker]

/-- The entry of slot `i`, as it is read off a sector. -/
def entryOf (sector : List UInt8) (i : Nat) : ReservedEntry :=
  ⟨UInt32.ofNat i, bytes16At sector (MbrLayout.entryAt i)⟩

theorem mem_lba0Entries {sector : List UInt8} (signed : hasBootSignature sector = true)
    {e : ReservedEntry} :
    e ∈ lba0Entries sector ↔ ∃ i < MbrLayout.entryCount,
      typeByteAt sector i ≠ MbrTypes.empty ∧ e = entryOf sector i := by
  unfold lba0Entries
  rw [if_neg (not_not.mpr signed), List.mem_filterMap]
  constructor
  · rintro ⟨i, place, found⟩
    split at found
    · cases found
    next used => exact ⟨i, List.mem_range.mp place, used, (Option.some.inj found).symm⟩
  · rintro ⟨i, place, used, rfl⟩
    exact ⟨i, List.mem_range.mpr place, if_neg used⟩

theorem reservedIndex_entryOf {sector : List UInt8} {i : Nat} (place : i < MbrLayout.entryCount) :
    reservedIndex (entryOf sector i) = i := toNat_slot place

/-- The bytes of an entry read off a sector made of its parts. -/
theorem bytes_entryOf {boot signature : List UInt8} {i : Nat}
    (bootLength : boot.length = MbrLayout.tableStart) (widths : EntryWidths block)
    (two : signature.length = 2) (place : i < MbrLayout.entryCount) :
    (entryOf (mbrSector boot block signature) i).entry.bytes = block i := by
  have whole : (mbrSector boot block signature).length = 512 := by
    rw [mbrSector, List.length_append, List.length_append, bootLength, length_entries widths, two]
    rfl
  have inside : MbrLayout.entryAt i + 16 ≤ (mbrSector boot block signature).length := by
    unfold MbrLayout.entryCount at place
    rw [whole, MbrLayout.entryAt, MbrLayout.tableStart, MbrLayout.entrySize]
    omega
  have read := bytes_bytes16At inside
  exact read.trans (sectorEntry_mbrSector bootLength widths place)

/-- Entries read off a sector are in slots of their own, and in use. -/
theorem legacyEntries_lba0Entries {sector : List UInt8} (width : sector.length = 512) :
    LegacyEntries (lba0Entries sector) := by
  by_cases signed : hasBootSignature sector = true
  · refine ⟨?_, ?_, ?_⟩
    · have slots : (lba0Entries sector).map reservedIndex =
          (List.range MbrLayout.entryCount).filter
            fun i => typeByteAt sector i ≠ MbrTypes.empty := by
        unfold lba0Entries
        rw [if_neg (not_not.mpr signed), List.map_filterMap, ← List.filterMap_eq_filter]
        refine List.filterMap_congr fun i place => ?_
        by_cases used : typeByteAt sector i = MbrTypes.empty
        · simp [used, Option.guard]
        · simp only [Option.guard, used, not_false_eq_true, decide_true, if_true, ne_eq]
          exact congrArg some (toNat_slot (List.mem_range.mp place))
      rw [slots]
      exact List.nodup_range.filter _
    · intro e member
      obtain ⟨i, place, _, rfl⟩ := (mem_lba0Entries signed).mp member
      rw [reservedIndex_entryOf place]
      exact place
    · intro e member
      obtain ⟨i, place, used, rfl⟩ := (mem_lba0Entries signed).mp member
      have inside : MbrLayout.entryAt i + 16 ≤ sector.length := by
        unfold MbrLayout.entryCount at place
        rw [width, MbrLayout.entryAt, MbrLayout.tableStart, MbrLayout.entrySize]
        omega
      unfold ReservedEntry.typeByte
      change byteAt (bytes16At sector (MbrLayout.entryAt i)).bytes _ ≠ _
      rw [bytes_bytes16At inside]
      have same : byteAt (sectorEntry sector i) MbrLayout.typeByte = typeByteAt sector i :=
        byteAt_sectorEntry (by decide)
      rw [← same] at used
      exact used
  · have empty : lba0Entries sector = [] := if_pos signed
    rw [empty]
    exact ⟨List.nodup_nil, by simp, by simp⟩

section Again

variable {boot : List UInt8} (bootLength : boot.length = MbrLayout.tableStart)
  (settled : Settled partitions block k)

include bootLength settled

theorem length_settled : (mbrSector boot block [0x55, 0xAA]).length = 512 := by
  rw [mbrSector, List.length_append, List.length_append, bootLength,
    length_entries settled.widths]
  rfl

theorem isProtective_settled :
    isProtective (mbrSector boot block [0x55, 0xAA]) = true ↔
      ∀ i < MbrLayout.entryCount, i ≠ k → block i = emptyEntry := by
  have types : ∀ i < MbrLayout.entryCount, typeByteAt (mbrSector boot block [0x55, 0xAA]) i =
      byteAt (block i) MbrLayout.typeByte :=
    fun i place => typeByteAt_mbrSector bootLength settled.widths place
  rw [isProtective_iff settled.place ((types k settled.place).trans settled.marker)]
  refine forall₃_congr fun i place other => ?_
  rw [types i place]
  constructor
  · intro empty
    rcases settled.others i place other with unused | ⟨used, _⟩
    · exact unused
    · exact absurd empty used
  · intro unused
    rw [unused]
    exact typeByte_emptyEntry

theorem signed_settled : hasBootSignature (mbrSector boot block [0x55, 0xAA]) = true := by
  have headLength : (boot ++ blocks block MbrLayout.entryCount).length = 510 := by
    rw [List.length_append, bootLength, length_entries settled.widths]
    rfl
  have first : (mbrSector boot block [0x55, 0xAA])[510]? = some 0x55 := by
    rw [mbrSector, List.getElem?_append_right (by rw [headLength]), headLength]
    rfl
  have second : (mbrSector boot block [0x55, 0xAA])[511]? = some 0xAA := by
    rw [mbrSector, List.getElem?_append_right (by rw [headLength]; decide), headLength]
    rfl
  simp [hasBootSignature, byteAt, List.getD_eq_getElem?_getD, first, second]

theorem mem_entries_settled {i : Nat} (place : i < MbrLayout.entryCount)
    (used : byteAt (block i) MbrLayout.typeByte ≠ MbrTypes.empty) :
    entryOf (mbrSector boot block [0x55, 0xAA]) i ∈
      lba0Entries (mbrSector boot block [0x55, 0xAA]) := by
  refine (mem_lba0Entries (signed_settled bootLength settled)).mpr ⟨i, place, ?_, rfl⟩
  rw [typeByteAt_mbrSector bootLength settled.widths place]
  exact used

/-- The only marker of the sector is in its slot. -/
theorem firstMarker_settled :
    firstMarker (lba0Entries (mbrSector boot block [0x55, 0xAA])) =
      some (entryOf (mbrSector boot block [0x55, 0xAA]) k) := by
  have bytes : ∀ i < MbrLayout.entryCount,
      (entryOf (mbrSector boot block [0x55, 0xAA]) i).entry.bytes = block i :=
    fun i place => bytes_entryOf bootLength settled.widths rfl place
  have listed := mem_entries_settled bootLength settled settled.place
    (by rw [settled.marker]; decide)
  have marks : (entryOf (mbrSector boot block [0x55, 0xAA]) k).IsMarker := by
    unfold ReservedEntry.IsMarker ReservedEntry.typeByte
    rw [bytes k settled.place]
    exact settled.marker
  cases found : firstMarker (lba0Entries (mbrSector boot block [0x55, 0xAA])) with
  | none =>
      have none := List.find?_eq_none.mp found _ listed
      simp [marks] at none
  | some m =>
      have own := isMarker_of_firstMarker found
      obtain ⟨i, place, _, rfl⟩ := (mem_lba0Entries (signed_settled bootLength settled)).mp
        (List.mem_of_find?_eq_some found)
      unfold ReservedEntry.IsMarker ReservedEntry.typeByte at own
      rw [bytes i place] at own
      by_cases same : i = k
      · rw [same]
      · rcases settled.others i place same with unused | ⟨_, other, _⟩
        · rw [unused, typeByte_emptyEntry] at own
          exact absurd own (by decide)
        · exact absurd own other

/-- What the next commit keeps: everything, but for the marker of a sector that holds
nothing else. -/
theorem keptBlock_settled {rebuild : Bool} {i : Nat} (place : i < MbrLayout.entryCount)
    (stays : i = k → rebuild = false) :
    keptBlock (keptFrom rebuild partitions false
      (lba0Entries (mbrSector boot block [0x55, 0xAA]))) i = block i := by
  have legacy := legacyEntries_lba0Entries (length_settled bootLength settled)
  have kept := legacy.sublist (@keptFrom_sublist rebuild false partitions
    (lba0Entries (mbrSector boot block [0x55, 0xAA])))
  have bytes : (entryOf (mbrSector boot block [0x55, 0xAA]) i).entry.bytes = block i :=
    bytes_entryOf bootLength settled.widths rfl place
  have index : reservedIndex (entryOf (mbrSector boot block [0x55, 0xAA]) i) = i :=
    reservedIndex_entryOf place
  by_cases used : byteAt (block i) MbrLayout.typeByte = MbrTypes.empty
  · have other : i ≠ k := by
      rintro rfl
      rw [settled.marker] at used
      exact absurd used (by decide)
    have unused : block i = emptyEntry := by
      rcases settled.others i place other with unused | ⟨inUse, _⟩
      · exact unused
      · exact absurd used inUse
    rw [unused]
    rcases keptBlock_cases (keptFrom rebuild partitions false
      (lba0Entries (mbrSector boot block [0x55, 0xAA]))) i with empty | ⟨e, present, same, _⟩
    · exact empty
    · have inUse := kept.used e present
      obtain ⟨j, bound, _, rfl⟩ := (mem_lba0Entries (signed_settled bootLength settled)).mp
        (keptFrom_sublist.subset present)
      rw [reservedIndex_entryOf bound] at same
      subst same
      unfold ReservedEntry.typeByte at inUse
      rw [bytes] at inUse
      exact absurd used inUse
  · have listed := mem_entries_settled bootLength settled place used
    have member : entryOf (mbrSector boot block [0x55, 0xAA]) i ∈ keptFrom rebuild partitions
        false (lba0Entries (mbrSector boot block [0x55, 0xAA])) := by
      refine mem_keptFrom.mpr ⟨listed, ?_⟩
      by_cases same : i = k
      · subst same
        rw [if_pos (isMarker_of_firstMarker (firstMarker_settled bootLength settled))]
        exact ⟨rfl, stays rfl, firstMarker_settled bootLength settled⟩
      · obtain unused | ⟨_, other, present⟩ := settled.others i place same
        · rw [unused, typeByte_emptyEntry] at used
          exact absurd rfl used
        · rw [if_neg, bytes]
          · exact present
          · unfold ReservedEntry.IsMarker ReservedEntry.typeByte
            rw [bytes]
            exact other
    have held := keptBlock_of_mem kept.distinct member
    rw [index, bytes] at held
    exact held

/-- The next commit leaves a settled sector as it is, but for the marker of one that holds
nothing else, which it builds anew. -/
theorem hybridLba0_settled (protective : Bytes16) :
    hybridLba0 (mbrSector boot block [0x55, 0xAA])
        (lba0Entries (mbrSector boot block [0x55, 0xAA])) protective partitions =
      .ok (mbrSector boot (if isProtective (mbrSector boot block [0x55, 0xAA]) then
        Function.update block k protective.bytes else block) [0x55, 0xAA]) := by
  have width := length_settled bootLength settled
  have front : slice (mbrSector boot block [0x55, 0xAA]) 0 MbrLayout.tableStart = boot := by
    rw [mbrSector, List.append_assoc, slice_append_left (by rw [bootLength]; decide), ← bootLength,
      slice_full]
  have index : reservedIndex (entryOf (mbrSector boot block [0x55, 0xAA]) k) = k :=
    reservedIndex_entryOf settled.place
  rw [hybridLba0_of_marker width (legacyEntries_lba0Entries width)
    (firstMarker_settled bootLength settled), front, index]
  refine congrArg Except.ok ?_
  cases isProtective (mbrSector boot block [0x55, 0xAA]) with
  | true =>
      rw [if_pos rfl, if_pos rfl, mbrSector_inj ((length_keptBlock _).update _
        protective.length_bytes) (settled.widths.update _ protective.length_bytes)]
      intro i place
      by_cases same : i = k
      · rw [same, Function.update_self, Function.update_self]
      · rw [Function.update_of_ne same, Function.update_of_ne same]
        exact keptBlock_settled bootLength settled place fun equal => absurd equal same
  | false =>
      rw [if_neg Bool.false_ne_true, if_neg Bool.false_ne_true,
        mbrSector_inj (length_keptBlock _) settled.widths]
      exact fun i place => keptBlock_settled bootLength settled place fun _ => rfl

theorem hybridLba0_settled_iff (protective : Bytes16) :
    hybridLba0 (mbrSector boot block [0x55, 0xAA])
        (lba0Entries (mbrSector boot block [0x55, 0xAA])) protective partitions =
      .ok (mbrSector boot block [0x55, 0xAA]) ↔
      ((∀ i < MbrLayout.entryCount, i ≠ k → block i = emptyEntry) →
        protective.bytes = block k) := by
  rw [hybridLba0_settled bootLength settled, ← isProtective_settled bootLength settled,
    Except.ok.injEq]
  cases isProtective (mbrSector boot block [0x55, 0xAA]) with
  | true =>
      rw [if_pos rfl, mbrSector_inj (settled.widths.update _ protective.length_bytes)
        settled.widths]
      constructor
      · intro same _
        have own := same k settled.place
        rw [Function.update_self] at own
        exact own
      · intro same i _
        rw [same rfl, Function.update_eq_self]
  | false => simp

end Again

end Settled

/-! ## When the next commit changes the sector -/

/-- A commit that leaves an old marker alone in the sector: the sector was hybrid, so the
marker is kept as it is, and of the entries beside it none is. -/
structure StrandsMarker (current : List UInt8) (lba0 : List ReservedEntry) (protective : Bytes16)
    (partitions : List Partition) : Prop where
  hybrid : isProtective current = false
  marker : ∃ m, firstMarker lba0 = some m ∧ m.entry.bytes ≠ protective.bytes
  others : ∀ e ∈ lba0, e.IsMarker ∨ IsLostMirror partitions e.entry.bytes

/-- A merged sector is merged into itself again, unless a marker was stranded. -/
theorem hybridLba0_merged_iff {current boot : List UInt8} {lba0 : List ReservedEntry}
    {protective : Bytes16} {partitions : List Partition} {block : Nat → List UInt8} {k : Nat}
    (bootLength : boot.length = MbrLayout.tableStart) (legacy : LegacyEntries lba0)
    (marks : byteAt protective.bytes MbrLayout.typeByte = MbrTypes.gptProtective)
    (merged : MergedSector current lba0 protective partitions block k) :
    hybridLba0 (mbrSector boot block [0x55, 0xAA])
        (lba0Entries (mbrSector boot block [0x55, 0xAA])) protective partitions =
      .ok (mbrSector boot block [0x55, 0xAA]) ↔
      ¬ StrandsMarker current lba0 protective partitions := by
  have settled := settled_of_merged legacy marks merged
  rw [hybridLba0_settled_iff bootLength settled]
  cases merged with
  | old m hybrid first =>
      have member := List.mem_of_find?_eq_some first
      have own := isMarker_of_firstMarker first
      have kept := legacy.sublist (@keptFrom_sublist false false partitions lba0)
      have held := @mem_keptFrom_firstMarker _ partitions _ first
      have alone : (∀ i < MbrLayout.entryCount, i ≠ reservedIndex m →
          keptBlock (keptFrom false partitions false lba0) i = emptyEntry) ↔
          ∀ e ∈ lba0, e.IsMarker ∨ IsLostMirror partitions e.entry.bytes := by
        constructor
        · intro empty e listed
          by_contra neither
          obtain ⟨other, present⟩ := not_or.mp neither
          have stays : e ∈ keptFrom false partitions false lba0 :=
            mem_keptFrom.mpr ⟨listed, by rw [if_neg other]; exact present⟩
          have differs : reservedIndex e ≠ reservedIndex m := by
            intro same
            have equal := List.inj_on_of_nodup_map legacy.distinct listed member same
            exact other (equal ▸ own)
          have unused := empty _ (legacy.bounded e listed) differs
          rw [keptBlock_of_mem kept.distinct stays] at unused
          have inUse := legacy.used e listed
          unfold ReservedEntry.typeByte at inUse
          rw [unused, typeByte_emptyEntry] at inUse
          exact inUse rfl
        · intro others i place differs
          rcases keptBlock_cases (keptFrom false partitions false lba0) i with empty |
            ⟨e, present, index, _⟩
          · exact empty
          · obtain ⟨listed, rule⟩ := mem_keptFrom.mp present
            split at rule
            next mark =>
              rw [first] at rule
              cases rule.2.2
              exact absurd index.symm differs
            next mark =>
              rcases others e listed with other | lost
              · exact absurd other mark
              · exact absurd lost rule
      rw [alone, keptBlock_of_mem kept.distinct held]
      constructor
      · rintro same ⟨_, ⟨other, found, differs⟩, others⟩
        rw [first] at found
        cases found
        exact differs (same others).symm
      · intro fine others
        by_contra differs
        exact fine ⟨hybrid, ⟨m, first, fun same => differs same.symm⟩, others⟩
  | new _ place seat =>
      rw [Function.update_self]
      refine iff_of_true (fun _ => rfl) ?_
      rintro ⟨hybrid, ⟨m, found, _⟩, _⟩
      rcases seat with ⟨_, _, _, bare⟩ | ⟨absent, _⟩
      · rw [hybrid] at bare
        cases bare
      · rw [absent] at found
        cases found

end DiskPartitions
