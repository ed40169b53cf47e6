import DiskPartitions.MdArrays
import DiskPartitions.TrappingWords

/-!
# Reading superblocks in words

Nothing overflows while a superblock is read: what it counts in sectors is scaled by checked
products, or is a 32-bit field.  What is read fits a word.
-/

namespace DiskPartitions

open Slices LittleEndian Refusals TrappingWords

/-! ## The checksum -/

/-- One word more in the sum. -/
def addWordTrapping (sb : List UInt8) (sum index : Nat) : Option Nat :=
  if index * 4 ≠ 216 then fit (sum + field sb (index * 4) 4) else some sum

def v1ChecksumTrapping (sb : List UInt8) : Option Nat := do
  let words := sb.length / 4
  let sum ← (List.range words).foldlM (addWordTrapping sb) 0
  let sum ← fit (if words * 4 + 2 ≤ sb.length then sum + field sb (words * 4) 2 else sum)
  let folded ← fit (sum % 2 ^ 32 + sum / 2 ^ 32)
  return folded % 2 ^ 32

/-- The words of a superblock sum up to no more than so many times the largest word. -/
theorem foldlM_addWord (sb : List UInt8) (words : List Nat) (sum : Nat)
    (room : sum + words.length * 2 ^ 32 ≤ 2 ^ 60) :
    words.foldlM (addWordTrapping sb) sum =
        some (words.foldl (fun sum word =>
          if word * 4 ≠ 216 then sum + field sb (word * 4) 4 else sum) sum) ∧
      words.foldl (fun sum word =>
          if word * 4 ≠ 216 then sum + field sb (word * 4) 4 else sum) sum ≤
        sum + words.length * 2 ^ 32 := by
  induction words generalizing sum with
  | nil => exact ⟨rfl, Nat.le_refl _⟩
  | cons index words ih =>
      have small := field_lt sb (index * 4) 4
      rw [List.length_cons, Nat.succ_mul] at room ⊢
      rw [List.foldlM_cons, List.foldl_cons, addWordTrapping]
      by_cases counted : index * 4 ≠ 216
      · have fits : sum + field sb (index * 4) 4 < 2 ^ 64 := by omega
        have left : sum + field sb (index * 4) 4 + words.length * 2 ^ 32 ≤ 2 ^ 60 := by omega
        obtain ⟨inRange, most⟩ := ih (sum + field sb (index * 4) 4) left
        rw [if_pos counted, if_pos counted, fit_of_lt fits, Option.bind_eq_bind,
          Option.bind_some]
        exact ⟨inRange, by omega⟩
      · have less : sum + words.length * 2 ^ 32 ≤ sum + (words.length * 2 ^ 32 + 2 ^ 32) :=
          Nat.add_le_add_left (Nat.le_add_right _ _) _
        obtain ⟨inRange, most⟩ := ih sum (Nat.le_trans less room)
        rw [if_neg counted, if_neg counted, Option.bind_eq_bind, Option.bind_some]
        exact ⟨inRange, Nat.le_trans most less⟩

theorem v1ChecksumTrapping_eq {sb : List UInt8} (short : sb.length ≤ 4096) :
    v1ChecksumTrapping sb = some (v1Checksum sb) := by
  obtain ⟨inRange, most⟩ := foldlM_addWord sb (List.range (sb.length / 4)) 0 (by
    rw [List.length_range]
    omega)
  rw [List.length_range] at most
  unfold v1ChecksumTrapping v1Checksum
  dsimp only
  rw [inRange]
  generalize (List.range (sb.length / 4)).foldl (fun sum word =>
    if word * 4 ≠ 216 then sum + field sb (word * 4) 4 else sum) 0 = sum at most ⊢
  have last := field_lt sb (sb.length / 4 * 4) 2
  generalize field sb (sb.length / 4 * 4) 2 = half at last ⊢
  rw [Option.bind_eq_bind, Option.bind_some]
  split
  next =>
    rw [fit_of_lt (by omega), Option.bind_some, fit_of_lt (by omega)]
    rfl
  next =>
    rw [fit_of_lt (by omega), Option.bind_some, fit_of_lt (by omega)]
    rfl

/-! ## The superblocks -/

/-- Decode a 1.x superblock; a sum or product that leaves its word traps. -/
def parseV1Trapping (buf : List UInt8) (place : Nat) (version : MdVersion)
    (devSize member : Nat) : Trapping MdError (Option MdSuperblock) :=
  if field buf 0 4 ≠ mdMagic ∨ field buf 4 4 ≠ 1 then exact (.ok none)
  else if field buf 144 8 * mdSector ≠ place then exact (.ok none)
  else do
    let maxDev := field buf 220 4
    exact (refuseIf (v1MaxDev < maxDev) (.corrupt member s!"max_dev {maxDev} exceeds 4 KiB"))
    let stored := field buf 216 4
    let computed ← word (v1ChecksumTrapping (slice buf 0 (v1Fixed + 2 * maxDev)))
    exact (refuseIf (stored ≠ computed) (.badChecksum member stored computed))
    let dataOffset ← exact (sectorsToBytes member (field buf 128 8) "data_offset")
    let dataSize ← exact (sectorsToBytes member (field buf 136 8) "data_size")
    let componentSize ← exact (sectorsToBytes member (field buf 80 8) "size")
    exact (refuseIf (devSize < dataOffset + dataSize) (.corrupt member
      s!"data area {dataOffset}+{dataSize} runs past the device ({devSize} bytes)"))
    let devNumber := field buf 160 4
    exact (refuseIf (maxDev ≤ devNumber) (.corrupt member
      s!"dev_number {devNumber} is outside the role table ({maxDev})"))
    let chunkBytes ← word (fit (field buf 88 4 * mdSector))
    exact (.ok (some {
      version
      superblockOffset := place
      arrayUuid := slice buf 16 16
      level := signed32 (field buf 72 4)
      layout := field buf 76 4
      chunkBytes
      raidDisks := field buf 92 4
      role := roleOf (field buf (v1Fixed + 2 * devNumber) 2)
      dataOffset
      dataSize
      componentSize
      events := field buf 200 8
      featureMap := field buf 8 4 }))

theorem parseV1Trapping_eq {buf : List UInt8} (whole : buf.length = 4096) (place : Nat)
    (version : MdVersion) (devSize member : Nat) :
    parseV1Trapping buf place version devSize member =
      exact (parseV1 buf place version devSize member) := by
  unfold parseV1Trapping parseV1
  by_cases other : field buf 0 4 ≠ mdMagic ∨ field buf 4 4 ≠ 1
  · rw [if_pos other, if_pos other]
  · rw [if_neg other, if_neg other]
    by_cases elsewhere : field buf 144 8 * mdSector ≠ place
    · rw [if_pos elsewhere, if_pos elsewhere]
    · rw [if_neg elsewhere, if_neg elsewhere]
      refine exact_bind rfl fun _ _ => ?_
      have short : (slice buf 0 (v1Fixed + 2 * field buf 220 4)).length ≤ 4096 := by
        rw [slice, List.drop_zero, List.length_take]
        omega
      have chunk := field_lt buf 88 4
      rw [word_bind (v1ChecksumTrapping_eq short)]
      refine exact_bind rfl fun _ _ => exact_bind rfl fun dataOffset _ => ?_
      refine exact_bind rfl fun dataSize _ => exact_bind rfl fun componentSize _ => ?_
      refine exact_bind rfl fun _ _ => exact_bind rfl fun _ _ => ?_
      rw [fit_bind (by rw [mdSector]; omega)]

/-- Decode a 0.90 superblock. -/
def parseV0Trapping (buf : List UInt8) (place member : Nat) :
    Trapping MdError (Option MdSuperblock) := do
  let w := fun word => field buf (word * 4) 4
  if w 0 ≠ mdMagic ∨ w 1 ≠ 0 ∨ w 2 ≠ 90 then exact (.ok none)
  else do
    let _ ← word (fit (w 8 * 1024))
    exact (parseV0 buf place member)

theorem parseV0Trapping_eq (buf : List UInt8) (place member : Nat) :
    parseV0Trapping buf place member = exact (parseV0 buf place member) := by
  have size := field_lt buf (8 * 4) 4
  unfold parseV0Trapping
  dsimp only
  split
  next other =>
    unfold parseV0
    rw [if_pos other]
  next => rw [fit_bind (by omega)]

def firstV1Trapping (dev : BlockRead) (member : Nat) :
    List (Nat × MdVersion) → Trapping MdError (Option MdSuperblock)
  | [] => exact (.ok none)
  | (place, version) :: rest => do
      let finish ← word (fit (place + 4096))
      if dev.sizeBytes.toNat < finish then firstV1Trapping dev member rest
      else do
        let buf ← exact (dev.readMd place 4096)
        match ← parseV1Trapping buf place version dev.sizeBytes.toNat member with
        | some sb => exact (.ok (some sb))
        | none => firstV1Trapping dev member rest

theorem length_of_readMd {dev : BlockRead} {offset len : Nat} {bytes : List UInt8}
    (read : dev.readMd offset len = .ok bytes) : bytes.length = len := by
  unfold BlockRead.readMd at read
  cases got : dev.readAt offset len with
  | error error =>
      rw [got] at read
      cases read
  | ok found =>
      rw [got] at read
      cases read
      exact dev.length_readAt got

theorem firstV1Trapping_eq (dev : BlockRead) (member : Nat) {places : List (Nat × MdVersion)}
    (low : ∀ candidate ∈ places, candidate.1 + 4096 < 2 ^ 64) :
    firstV1Trapping dev member places = exact (firstV1 dev member places) := by
  induction places with
  | nil => rfl
  | cons candidate rest ih =>
      obtain ⟨place, version⟩ := candidate
      have later := ih fun other listed => low other (List.mem_cons_of_mem _ listed)
      rw [firstV1Trapping, firstV1, fit_bind (low (place, version) List.mem_cons_self)]
      split
      next => exact later
      next =>
        refine exact_bind rfl fun buf read => ?_
        refine exact_bind (parseV1Trapping_eq (length_of_readMd read) _ _ _ _) ?_
        intro found _
        cases found with
        | some sb => rfl
        | none => exact later

/-- Where the 1.x superblocks may be; the last place is counted back from the end. -/
def v1CandidatesTrapping (size : Nat) : Option (List (Nat × MdVersion)) :=
  if 16 ≤ size / mdSector then do
    let last ← fit ((size / mdSector - 16) / 8 * 8 * mdSector)
    return [(0, .v1_1), (4096, .v1_2), (last, .v1_0)]
  else some [(0, .v1_1), (4096, .v1_2)]

theorem v1CandidatesTrapping_eq {size : Nat} (small : size < 2 ^ 64) :
    v1CandidatesTrapping size = some (v1Candidates size) := by
  unfold v1CandidatesTrapping v1Candidates mdSector
  by_cases room : 16 ≤ size / 512
  · rw [if_pos room, if_pos room, fit_of_lt (by omega)]
    rfl
  · rw [if_neg room, if_neg room]
    rfl

theorem v1Candidates_low {size : Nat} (small : size < 2 ^ 64) :
    ∀ candidate ∈ v1Candidates size, candidate.1 + 4096 < 2 ^ 64 := by
  intro candidate listed
  unfold v1Candidates at listed
  split at listed
  next =>
    simp only [List.cons_append, List.nil_append, List.mem_cons, List.not_mem_nil, or_false] at listed
    rcases listed with rfl | rfl | rfl
    · decide
    · decide
    · simp only [mdSector]
      omega
  next =>
    simp only [List.append_nil, List.mem_cons, List.not_mem_nil, or_false] at listed
    rcases listed with rfl | rfl
    · decide
    · decide

/-- The superblock of one device; a sum or product that leaves its word traps. -/
def readSuperblockOfTrapping (dev : BlockRead) (member : Nat) :
    Trapping MdError (Option MdSuperblock) := do
  let size := dev.sizeBytes.toNat
  let candidates ← word (v1CandidatesTrapping size)
  match ← firstV1Trapping dev member candidates with
  | some sb => exact (.ok (some sb))
  | none =>
      if v0Reserved ≤ size then do
        let place := size / v0Reserved * v0Reserved - v0Reserved
        let buf ← exact (dev.readMd place v0Size)
        parseV0Trapping buf place member
      else exact (.ok none)

theorem readSuperblockOfTrapping_eq (dev : BlockRead) (member : Nat) :
    readSuperblockOfTrapping dev member = exact (readSuperblockOf dev member) := by
  have small := dev.sizeBytes.toNat_lt
  unfold readSuperblockOfTrapping readSuperblockOf
  dsimp only
  rw [word_bind (v1CandidatesTrapping_eq small)]
  refine exact_bind (firstV1Trapping_eq dev member (v1Candidates_low small)) ?_
  intro found _
  cases found with
  | some sb => rfl
  | none =>
      dsimp only
      split
      next => exact exact_bind rfl fun buf _ => parseV0Trapping_eq buf _ member
      next => rfl

/-! ## What is read fits a word -/

/-- The numbers of a superblock that assembly computes with. -/
structure MdSuperblock.InWords (sb : MdSuperblock) : Prop where
  chunk : sb.chunkBytes < 2 ^ 64
  dataOffset : sb.dataOffset < 2 ^ 64
  dataSize : sb.dataSize < 2 ^ 64
  component : sb.componentSize < 2 ^ 64

theorem sectorsToBytes_lt {member sectors value : Nat} {what : String}
    (scaled : sectorsToBytes member sectors what = .ok value) : value < 2 ^ 64 := by
  unfold sectorsToBytes at scaled
  split at scaled
  next small =>
    cases scaled
    exact small
  next => cases scaled

theorem inWords_of_parseV1 {buf : List UInt8} {place devSize member : Nat} {version : MdVersion}
    {sb : MdSuperblock} (parsed : parseV1 buf place version devSize member = .ok (some sb)) :
    sb.InWords := by
  have chunk := field_lt buf 88 4
  unfold parseV1 at parsed
  split at parsed
  next => cases parsed
  next =>
    split at parsed
    next => cases parsed
    next =>
      obtain ⟨_, parsed⟩ := refuseIf_bind_eq_ok.mp parsed
      obtain ⟨_, parsed⟩ := refuseIf_bind_eq_ok.mp parsed
      obtain ⟨dataOffset, offset, parsed⟩ := bind_eq_ok.mp parsed
      obtain ⟨dataSize, size, parsed⟩ := bind_eq_ok.mp parsed
      obtain ⟨componentSize, component, parsed⟩ := bind_eq_ok.mp parsed
      obtain ⟨_, parsed⟩ := refuseIf_bind_eq_ok.mp parsed
      obtain ⟨_, parsed⟩ := refuseIf_bind_eq_ok.mp parsed
      cases parsed
      constructor
      · dsimp only
        rw [mdSector]
        omega
      · exact sectorsToBytes_lt offset
      · exact sectorsToBytes_lt size
      · exact sectorsToBytes_lt component

theorem inWords_of_parseV0 {buf : List UInt8} {place member : Nat} {sb : MdSuperblock}
    (low : place < 2 ^ 64) (parsed : parseV0 buf place member = .ok (some sb)) : sb.InWords := by
  have chunk := field_lt buf (65 * 4) 4
  have size := field_lt buf (8 * 4) 4
  unfold parseV0 at parsed
  dsimp only at parsed
  split at parsed
  next => cases parsed
  next =>
    obtain ⟨_, parsed⟩ := refuseIf_bind_eq_ok.mp parsed
    cases parsed
    constructor
    · dsimp only
      omega
    · dsimp only
      omega
    · exact low
    · dsimp only
      omega

theorem inWords_of_firstV1 {dev : BlockRead} {member : Nat} {places : List (Nat × MdVersion)}
    {sb : MdSuperblock} (found : firstV1 dev member places = .ok (some sb)) : sb.InWords := by
  induction places with
  | nil => cases found
  | cons candidate rest ih =>
      rw [firstV1] at found
      split at found
      next => exact ih found
      next =>
        obtain ⟨buf, _, found⟩ := bind_eq_ok.mp found
        obtain ⟨parsed, read, found⟩ := bind_eq_ok.mp found
        cases parsed with
        | some other =>
            cases found
            exact inWords_of_parseV1 read
        | none => exact ih found

theorem inWords_of_readSuperblockOf {dev : BlockRead} {member : Nat} {sb : MdSuperblock}
    (found : readSuperblockOf dev member = .ok (some sb)) : sb.InWords := by
  have small := dev.sizeBytes.toNat_lt
  unfold readSuperblockOf at found
  dsimp only at found
  obtain ⟨first, read, found⟩ := bind_eq_ok.mp found
  cases first with
  | some other =>
      cases found
      exact inWords_of_firstV1 read
  | none =>
      dsimp only at found
      split at found
      next =>
        obtain ⟨buf, _, found⟩ := bind_eq_ok.mp found
        refine inWords_of_parseV0 ?_ found
        simp only [v0Reserved]
        omega
      next => cases found

end DiskPartitions
