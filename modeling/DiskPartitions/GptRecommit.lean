import DiskPartitions.CarriedTails
import DiskPartitions.StableSlots

/-!
# Committing a GPT again

A table that was read and is written back unedited reads the same, whoever wrote it:
what the reader drops of a foreign table is nothing it reports.
-/

namespace DiskPartitions

open Slices LittleEndian CheckedWords Refusals WriteJournal KeyOrder FallibleState

/-! ## Entries that were read -/

section Entries

variable {size : Nat} {deviceSize : UInt64} {array : List UInt8} {i : Nat} {e : Partition}
  {span : UInt64 × UInt64}

/-- The fields of a used entry. -/
theorem fields_of_parseEntry (parsed : parseEntry size deviceSize array i = .ok (some (e, span))) :
    e.label = parseUtf16Label (slice array (i * size + 56) 72) ∧
      e.slot = some (UInt32.ofNat i) ∧ e.issues = EntryIssue.none ∧
      e.availableLength = availableOnDevice e.start e.length deviceSize ∧
      span.1.toNat ≤ span.2.toNat ∧ e.start.toNat = span.1.toNat * 512 ∧
      e.length.toNat = (span.2.toNat - span.1.toNat + 1) * 512 := by
  simp only [parseEntry] at parsed
  split at parsed
  · cases parsed
  · obtain ⟨ordered, parsed⟩ := refuseIf_bind_eq_ok.mp parsed
    obtain ⟨start, starts, parsed⟩ := bind_eq_ok.mp parsed
    obtain ⟨sectors, counted, parsed⟩ := bind_eq_ok.mp parsed
    obtain ⟨length, lengths, parsed⟩ := bind_eq_ok.mp parsed
    cases parsed
    rw [UInt64.lt_iff_toNat_lt] at ordered
    have first := checkedMul_eq_some.mp (orRefuse_eq_ok.mp starts)
    obtain ⟨less, difference, sum⟩ := Option.bind_eq_some_iff.mp (orRefuse_eq_ok.mp counted)
    have count := checkedAdd_eq_some.mp sum
    have gap := checkedSub_eq_some.mp difference
    have whole := checkedMul_eq_some.mp (orRefuse_eq_ok.mp lengths)
    have one : (1 : UInt64).toNat = 1 := rfl
    rw [toNat_sectorSize] at first whole
    refine ⟨rfl, rfl, rfl, rfl, Nat.le_of_not_lt ordered, first, ?_⟩
    change length.toNat = ((u64At array _).toNat - (u64At array _).toNat + 1) * 512
    rw [whole, count, one]
    omega

/-- An entry that lies on the device is stored as it was read. -/
theorem stored_of_parseEntry (parsed : parseEntry size deviceSize array i = .ok (some (e, span)))
    (inside : e.start.toNat + e.length.toNat ≤ deviceSize.toNat) :
    stored e (UInt32.ofNat i) = e ∧ e.span = span := by
  obtain ⟨label, slot, issues, available, ordered, starts, lengths⟩ :=
    fields_of_parseEntry parsed
  have bounded := deviceSize.toNat_lt
  have computed : e.sectorSpan = .ok span :=
    Partition.sectorSpan_eq_ok.mpr ⟨by omega, by omega, by omega, by omega⟩
  refine ⟨?_, Partition.span_of_ok computed⟩
  have kept : storedLabel e.label = e.label := by
    rw [label]
    exact storedLabel_parseUtf16Label (List.length_take_le _ _)
  rw [availableOnDevice_of_le inside] at available
  obtain ⟨_, _, _, _, _, _, _, _⟩ := e
  simp only at kept slot issues available
  rw [stored, kept, slot, issues, available]

end Entries

/-! ## An unedited commit -/

section Unedited

variable {crc32 : List UInt8 → UInt32} {set : PartitionSet} {dev : ByteDevice}
  {lba0 lba1 array : List UInt8} {header : Header} {tails : EntryTails} {plan : GptPlan}

/-- Partitions that all carry a slot are written into the slots they carry. -/
theorem slots_eq_filterMap {partitions : List Partition} {slots : List UInt32}
    (lengths : slots.length = partitions.length)
    (own : ∀ seat ∈ partitions.zip slots, ∀ slot, seat.1.slot = some slot → seat.2 = slot)
    (seated : ∀ p ∈ partitions, ∃ slot, p.slot = some slot) :
    slots = partitions.filterMap Partition.slot := by
  have same : partitions.map Partition.slot = slots.map some := by
    apply List.ext_getElem
    · rw [List.length_map, List.length_map, lengths]
    · intro k first second
      rw [List.length_map] at first second
      obtain ⟨slot, carried⟩ := seated _ (List.getElem_mem first)
      obtain ⟨given, here, seat⟩ := mem_zip_of_getElem? lengths
        (List.getElem?_eq_getElem first)
      obtain ⟨_, value⟩ := List.getElem?_eq_some_iff.mp here
      have same : given = slot := own _ seat slot carried
      rw [List.getElem_map, List.getElem_map, carried, value, same]
  rw [filterMap_slot, same, List.filterMap_map]
  exact List.filterMap_some.symm

/-- A table that was read and is written back has its partitions in the order they were
read in. -/
theorem byKey_of_readGpt (source : set.ReadGpt crc32 dev lba0 lba1 header array)
    (accepted : plan.Accepted dev set.partitions set.gptGeometry tails) :
    byKey seatIndex set.gptGeometry.numEntries.toNat (set.partitions.zip plan.slots) =
      set.partitions.zip plan.slots := by
  have seated : ∀ p ∈ set.partitions, ∃ slot, p.slot = some slot := by
    intro p member
    obtain ⟨i, _, slot⟩ := source.seated member
    exact ⟨_, slot⟩
  have ordered : plan.slots.Pairwise fun first second => first.toNat < second.toNat := by
    rw [slots_eq_filterMap accepted.length_slots accepted.own_slot seated]
    refine List.Pairwise.sublist source.slots_sublist ?_
    rw [List.pairwise_map]
    refine List.pairwise_lt_range.imp_of_mem fun {i j} first second less => ?_
    rw [toNat_ofNat_place (List.mem_range.mp first), toNat_ofNat_place (List.mem_range.mp second)]
    exact less
  refine byKey_of_pairwise accepted.seating.bounded ?_
  rw [← List.map_snd_zip (Nat.le_of_eq accepted.length_slots), List.pairwise_map] at ordered
  exact ordered

/-- Every entry of a table that was accepted lies on the device. -/
theorem inside_of_accepted
    (accepted : plan.Accepted dev set.partitions set.gptGeometry tails)
    {found : List (Partition × UInt64 × UInt64)} (parts : set.partitions = withIssues header found)
    {entry : Partition × UInt64 × UInt64} (member : entry ∈ found) :
    entry.1.start.toNat + entry.1.length.toNat ≤ dev.sizeBytes.toNat := by
  have ranges : (entry.1.start, entry.1.length) ∈
      set.partitions.map fun p => (p.start, p.length) := by
    rw [parts, map_withIssues (fun _ _ => rfl) header found]
    exact List.mem_map_of_mem member
  obtain ⟨p, present, same⟩ := List.mem_map.mp ranges
  obtain ⟨slot, seat⟩ := seat_of_mem accepted present
  have fits : p.FitsGpt plan.usable := accepted.seating.fits _ seat
  have last := accepted.usableOn.last_lt
  obtain ⟨start, length⟩ := Prod.mk.inj same
  have ends := fits.end_le
  rw [← start, ← length, ByteDevice.toNat_sizeBytes]
  omega

/-- The partitions of a table that was read are found again as they were. -/
theorem storedBySlot_of_readGpt (source : set.ReadGpt crc32 dev lba0 lba1 header array)
    (accepted : plan.Accepted dev set.partitions set.gptGeometry tails)
    (declared : (header.firstUsableLba, header.lastUsableLba) = plan.usable) :
    storedBySlot set.gptGeometry (set.partitions.zip plan.slots) = set.partitions := by
  obtain ⟨found, listed, parts⟩ := found_of_parseEntryArray source.entries
  -- A partition as it is found again, which does not depend on its issues.
  let again (p : Partition) := (stored p (p.slot.getD 0), p.span)
  have seats : (set.partitions.zip plan.slots).map
      (fun seat => (stored seat.1 seat.2, seat.1.span)) = set.partitions.map again := by
    conv_rhs => rw [← List.map_fst_zip (Nat.le_of_eq accepted.length_slots.symm), List.map_map]
    refine List.map_congr_left fun seat member => ?_
    obtain ⟨i, _, slot⟩ := source.seated (List.of_mem_zip member).1
    have own := accepted.own_slot seat member _ slot
    simp only [Function.comp_apply, again, slot, own, Option.getD_some]
  have entries : found.map (fun entry => again entry.1) = found := by
    refine Eq.trans (List.map_congr_left fun entry member => ?_) (List.map_id found)
    have inside := inside_of_accepted accepted parts member
    rw [listed] at member
    obtain ⟨i, _, here⟩ := List.mem_filterMap.mp member
    have parsed := parseEntry_of_entryIn here
    obtain ⟨kept, span⟩ := stored_of_parseEntry parsed inside
    simp only [again, slot_of_entryIn here, Option.getD_some, kept, span, id]
  calc storedBySlot set.gptGeometry (set.partitions.zip plan.slots)
      = withIssues header ((byKey seatIndex set.gptGeometry.numEntries.toNat
          (set.partitions.zip plan.slots)).map
            fun seat => (stored seat.1 seat.2, seat.1.span)) :=
        (withIssues_seats accepted.seating declared).symm
    _ = withIssues header (set.partitions.map again) := by
        rw [byKey_of_readGpt source accepted, seats]
    _ = withIssues header found := by
        rw [parts, map_withIssues (fun _ _ => rfl) header found, entries]
    _ = set.partitions := parts.symm

/-- A range the table declares is the range it is written with. -/
theorem usable_of_declared {g : GptGeometry} {total : UInt64} {usable declared : UInt64 × UInt64}
    (range : g.usableRange total = .ok usable) (states : g.declaredUsable = some declared) :
    usable = declared := by
  unfold GptGeometry.usableRange at range
  obtain ⟨_, _, range⟩ := bind_eq_ok.mp range
  obtain ⟨_, range⟩ := refuseIf_bind_eq_ok.mp range
  rw [states] at range
  obtain ⟨_, range⟩ := refuseIf_bind_eq_ok.mp range
  obtain ⟨_, range⟩ := refuseIf_bind_eq_ok.mp range
  obtain ⟨_, range⟩ := refuseIf_bind_eq_ok.mp range
  cases range
  rfl

/-- The tails found again are the tails that were found. -/
theorem tails_restored (source : set.ReadGpt crc32 dev lba0 lba1 header array)
    {again : EntryTails}
    (reread : RereadTails set.gptGeometry set.gptEntryTails set.partitions again) :
    again = set.gptEntryTails := by
  by_cases standard : set.gptGeometry.entrySize.toNat ≤ 128
  · rw [reread.standard standard]
    have collected := source.tails
    rw [source.geometry] at standard
    change header.partitionEntrySize.toNat ≤ entryStandardBytes at standard
    unfold entryTails at collected
    rw [if_pos standard] at collected
    exact Except.ok.inj collected
  · have large := Nat.lt_of_not_le standard
    obtain ⟨listed, absent⟩ := tails_of_readGpt source large
    obtain ⟨_, width⟩ := array_of_parseEntryArray source.entries
    have size : header.partitionEntrySize.toNat = set.gptGeometry.entrySize.toNat := by
      rw [source.geometry]
      rfl
    rw [size] at width
    funext uuid
    by_cases present : ∃ p ∈ set.partitions, p.uuid = some uuid
    · obtain ⟨p, member, named⟩ := present
      obtain ⟨i, bound, slot⟩ := source.seated member
      have known := listed p member uuid _ named slot
      have full := length_tailAt large width bound
      rw [← toNat_ofNat_place bound] at full
      rw [reread.listed large p member uuid named, paddedTail_of_full known full, known]
    · have unlisted : ∀ p ∈ set.partitions, p.uuid ≠ some uuid := fun p member named =>
        present ⟨p, member, named⟩
      rw [reread.absent uuid unlisted, absent uuid unlisted]

end Unedited

/-- A GPT set that is committed unedited to the device it came off cannot be told from
the old one by a reader: the partitions are the same, field by field and in the same
order, and so is everything else the next set is made of. -/
theorem unedited_gpt_invisible (crc32 : List UInt8 → UInt32) {dev after : ByteDevice}
    {set : PartitionSet} (read : PartitionSet.fromProbe crc32 dev = .ok set)
    (gpt : set.tableKind = .gpt)
    (committed : (set.commit crc32).exec dev = (.ok (), after)) :
    probe crc32 dev = .ok (.gpt, set.partitions) ∧
      probe crc32 after = .ok (.gpt, set.partitions) ∧
      ∃ again, PartitionSet.fromProbe crc32 after = .ok again ∧
        again.partitions = set.partitions ∧ again.diskGuid = set.diskGuid ∧
        again.gptGeometry = set.gptGeometry ∧ again.gptEntryTails = set.gptEntryTails := by
  obtain ⟨lba0, lba1, header, array, source⟩ := readGpt_of_fromProbe read gpt
  obtain ⟨plan, planned, _, accepted, rfl⟩ := PartitionSet.commitGpt_eq_ok gpt committed
  have declares : set.gptGeometry.declaredUsable =
      some (header.firstUsableLba, header.lastUsableLba) := by
    rw [source.geometry]
    rfl
  have usable := usable_of_declared (gptPlan_iff.mp planned).usable declares
  have restored := storedBySlot_of_readGpt source accepted usable.symm
  obtain ⟨again, found, reread⟩ := fromProbe_committed crc32 set.diskGuid accepted
  have before : probe crc32 dev = .ok (.gpt, set.partitions) := gpt ▸ probe_of_fromProbe read
  refine ⟨before, ?_, again, found, ?_, reread.diskGuid, ?_, tails_restored source reread.tails⟩
  · rw [(probe_committed crc32 set.diskGuid accepted).1, restored]
  · rw [reread.partitions, restored]
  · rw [reread.geometry, usable, ← declares]

/-- The hybrid disk is committed as it was read. -/
theorem unedited_taggedDisk_invisible :
    ∃ after, (taggedSet.commit CyclicSums.ieee).exec taggedDisk = (.ok (), after) ∧
      PartitionSet.fromProbe CyclicSums.ieee taggedDisk = .ok taggedSet ∧
      probe CyclicSums.ieee after = .ok (.gpt, taggedSet.partitions) := by
  obtain ⟨after, committed⟩ := exists_commit_taggedSet
  obtain ⟨_, found, _⟩ := unedited_gpt_invisible CyclicSums.ieee fromProbe_taggedDisk rfl committed
  exact ⟨after, committed, fromProbe_taggedDisk, found⟩

end DiskPartitions
