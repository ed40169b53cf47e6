import DiskPartitions.BoundedLooks
import DiskPartitions.GptReader
import DiskPartitions.Utf8Text

/-!
# Sniffing a filesystem

A partition's filesystem is told from signatures at fixed places near its start.  Each probe
tests the length of what it was given first, and none looks behind the window that is read.
-/

namespace DiskPartitions

open Slices LittleEndian CheckedWords TrappingWords BoundedLooks Utf8 Refusals

inductive ExtVersion
  | ext2OrAny
  | ext3
  | ext4
  deriving DecidableEq, Repr

/-- Recognised filesystem signatures. -/
inductive FsKind
  | ext (version : ExtVersion)
  | ntfs
  | exFat
  | fat32
  | fat16
  | hfsPlus
  | apfs
  | linuxSwap
  | iso9660
  | squashfs
  | unknown
  deriving DecidableEq, Repr

/-- End of the `CD001` identifier. -/
def iso9660End : Nat := 0x8006

/-- The swap page sizes that are probed. -/
def swapPages : List Nat := [4096, 8192, 16384, 32768, 65536]

/-- How much is read of a partition. -/
def sniffWindow : UInt64 :=
  let largestPage := swapPages.getLastD 0
  UInt64.ofNat (if iso9660End < largestPage then largestPage else iso9660End)

theorem toNat_sniffWindow : sniffWindow.toNat = 65536 := by decide

/-! ## The probes -/

/-- Any of these incompatible features implies ext4. -/
def ext4IncompatMask : UInt32 :=
  0x040 ||| 0x080 ||| 0x100 ||| 0x200 ||| 0x400 ||| 0x1000 ||| 0x2000 ||| 0x4000 ||| 0x8000

/-- Which ext the feature flags of the superblock speak of. -/
def classifyExt : Look UInt8 ExtVersion :=
  let sb := 1024
  ifLong (sb + 0x68)
    (do
      let featureCompat := u32At (← bytesAt (sb + 0x5C) 4) 0
      let featureIncompat := u32At (← bytesAt (sb + 0x60) 4) 0
      if featureIncompat &&& ext4IncompatMask ≠ 0 then return .ext4
      else if featureCompat &&& 0x4 ≠ 0 then return .ext3
      else return .ext2OrAny)
    (pure .ext2OrAny)

/-- A place where one of the tags stands for a kind. -/
def tagKind (kind : FsKind) (least offset len : Nat) (tags : List String) :
    Look UInt8 (Option FsKind) := do
  if ← tagAt least offset len (tags.map asBytes) then return some kind else return none

def squashfsKind : Look UInt8 (Option FsKind) := tagKind .squashfs 4 0 4 ["hsqs"]
def fat32Kind : Look UInt8 (Option FsKind) := tagKind .fat32 0x5A 0x52 8 ["FAT32   "]
def fat16Kind : Look UInt8 (Option FsKind) :=
  tagKind .fat16 0x3E 0x36 8 ["FAT16   ", "FAT12   "]
def hfsPlusKind : Look UInt8 (Option FsKind) := tagKind .hfsPlus 1026 1024 2 ["H+", "HX"]
def apfsKind : Look UInt8 (Option FsKind) := tagKind .apfs 36 32 4 ["NXSB"]
def iso9660Kind : Look UInt8 (Option FsKind) := tagKind .iso9660 iso9660End 0x8001 5 ["CD001"]

/-- NTFS, exFAT and FAT begin with a boot sector. -/
def bootKind : Look UInt8 (Option FsKind) :=
  ifLong 512
    (do
      let signature ← bytesAt 510 2
      if signature = [0x55, 0xAA] then do
        let oem ← bytesAt 3 8
        if oem = asBytes "NTFS    " then return some .ntfs
        else if oem = asBytes "EXFAT   " then return some .exFat
        else firstOf [fat32Kind, fat16Kind]
      else return none)
    (pure none)

def extKind : Look UInt8 (Option FsKind) :=
  ifLong 1082
    (do
      let magic := u16At (← bytesAt 1080 2) 0
      if magic = 0xEF53 then return some (.ext (← classifyExt)) else return none)
    (pure none)

def linuxSwapKind : Look UInt8 (Option FsKind) := do
  let isSwap ← anyOf (swapPages.map fun page => tagAt page (page - 10) 10 [asBytes "SWAPSPACE2"])
  if isSwap then return some .linuxSwap else return none

/-- What the first bytes of a filesystem are likely to be; `none` is an index out of bounds. -/
def classify : Look UInt8 FsKind := do
  let found ← firstOf [squashfsKind, bootKind, extKind, hfsPlusKind, apfsKind, linuxSwapKind,
    iso9660Kind]
  return found.getD .unknown

example : classify (List.replicate 32 0 ++ asBytes "NXSB") = some .apfs := by decide +kernel

/-- How many bytes are read to sniff a partition. -/
def sniffLength (deviceSize : UInt64) (partition : Partition) : Trapping Error UInt64 :=
  if deviceSize ≤ partition.start then
    exact (.error (.block (.shortRead partition.start.toNat
      (min sniffWindow partition.length).toNat 0)))
  else do
    let want := min sniffWindow partition.length
    let available ← word (checkedSub deviceSize partition.start)
    exact (.ok (min want available))

/-- Sniff the filesystem at the start of a partition. -/
def sniff (dev : BlockRead) (partition : Partition) : Trapping Error FsKind := do
  let len ← sniffLength dev.sizeBytes partition
  let buf ← exact (dev.read partition.start.toNat len.toNat)
  word (classify buf)

/-! ## No probe looks behind the window -/

section Window

variable {window : Nat}

theorem bounded_classifyExt (small : 1128 ≤ window) : Bounded 0 window classifyExt := by
  refine bounded_ifLong small ?_ (.pure _)
  refine (bounded_bytesAt (by decide) small).bind fun compat => ?_
  refine (bounded_bytesAt (by decide) small).bind fun incompat => ?_
  exact .ite (.pure _) (.ite (.pure _) (.pure _))

theorem bounded_tagKind (kind : FsKind) {least offset len : Nat} (tags : List String)
    (inside : offset + len ≤ least) (small : least ≤ window) :
    Bounded 0 window (tagKind kind least offset len tags) :=
  (bounded_tagAt inside small).bind fun _ => .ite (.pure _) (.pure _)

theorem bounded_bootKind (small : 512 ≤ window) : Bounded 0 window bootKind := by
  refine bounded_ifLong small ?_ (.pure none)
  refine (bounded_bytesAt (by decide) small).bind fun signature => .ite ?_ (.pure none)
  refine (bounded_bytesAt (by decide) small).bind fun oem => ?_
  refine .ite (.pure _) (.ite (.pure _) ?_)
  refine .mono (bounded_firstOf ?_) (Nat.zero_le _)
  simp only [List.mem_cons, List.not_mem_nil, or_false, forall_eq_or_imp, forall_eq]
  constructor
  · exact bounded_tagKind .fat32 _ (by decide) (by omega)
  · exact bounded_tagKind .fat16 _ (by decide) (by omega)

theorem bounded_extKind (small : 1128 ≤ window) : Bounded 0 window extKind := by
  refine bounded_ifLong (by omega) ?_ (.pure none)
  refine (bounded_bytesAt (by decide) (by omega)).bind fun magic => .ite ?_ (.pure none)
  exact ((bounded_classifyExt small).mono (Nat.zero_le _)).bind fun _ => .pure _

/-- The largest page is the window. -/
theorem bounded_linuxSwapKind (small : 65536 ≤ window) : Bounded 0 window linuxSwapKind := by
  refine (bounded_anyOf ?_).bind fun _ => .ite (.pure _) (.pure _)
  intro look member
  obtain ⟨page, listed, rfl⟩ := List.mem_map.mp member
  have pages : ∀ page ∈ swapPages, page - 10 + 10 ≤ page ∧ page ≤ 65536 := by decide
  obtain ⟨inside, page_le⟩ := pages page listed
  exact bounded_tagAt inside (Nat.le_trans page_le small)

theorem bounded_classify : Bounded 0 sniffWindow.toNat classify := by
  rw [toNat_sniffWindow]
  refine (bounded_firstOf ?_).bind fun _ => .pure _
  simp only [List.mem_cons, List.not_mem_nil, or_false, forall_eq_or_imp, forall_eq]
  refine ⟨?_, ?_, ?_, ?_, ?_, ?_, ?_⟩
  · exact bounded_tagKind .squashfs _ (by decide) (by decide)
  · exact bounded_bootKind (by decide)
  · exact bounded_extKind (by decide)
  · exact bounded_tagKind .hfsPlus _ (by decide) (by decide)
  · exact bounded_tagKind .apfs _ (by decide) (by decide)
  · exact bounded_linuxSwapKind (by decide)
  · exact bounded_tagKind .iso9660 _ (by decide) (by decide)

end Window

/-- Nothing is indexed past the end of any buffer. -/
theorem classify_isSome (buf : List UInt8) : (classify buf).isSome := by
  obtain ⟨kind, whole, _⟩ := bounded_classify buf (Nat.zero_le _)
  rw [whole]
  rfl

theorem classify_take (buf : List UInt8) :
    classify (buf.take sniffWindow.toNat) = classify buf := by
  obtain ⟨kind, whole, cut⟩ := bounded_classify buf (Nat.zero_le _)
  rw [whole, cut]

/-! ## Sniffing a whole partition -/

theorem toNat_min (a b : UInt64) : (min a b).toNat = min a.toNat b.toNat := by
  by_cases below : a ≤ b
  · rw [show min a b = a from if_pos below]
    rw [UInt64.le_iff_toNat_le] at below
    omega
  · rw [show min a b = b from if_neg below]
    rw [UInt64.le_iff_toNat_le] at below
    omega

/-- A partition that begins on the device is read up to the window, its end or the device's. -/
theorem sniffLength_of_lt {deviceSize : UInt64} {p : Partition} (begins : p.start < deviceSize) :
    ∃ len, sniffLength deviceSize p = exact (.ok len) ∧
      len.toNat = min (min 65536 p.length.toNat) (deviceSize.toNat - p.start.toNat) := by
  rw [UInt64.lt_iff_toNat_lt] at begins
  have rest := toNat_sub_of_le (Nat.le_of_lt begins)
  refine ⟨min (min sniffWindow p.length) (deviceSize - p.start), ?_, ?_⟩
  · unfold sniffLength
    rw [if_neg (by rw [UInt64.le_iff_toNat_le]; omega)]
    dsimp only
    rw [word_bind (checkedSub_of_le (Nat.le_of_lt begins))]
  · rw [toNat_min, toNat_min, rest, toNat_sniffWindow]

/-- A partition that begins past the end is refused. -/
theorem sniff_of_le {dev : BlockRead} {p : Partition} (past : dev.sizeBytes ≤ p.start) :
    sniff dev p = exact (.error (.block (.shortRead p.start.toNat
      (min sniffWindow p.length).toNat 0))) := by
  unfold sniff sniffLength
  rw [if_pos past, exact_error_bind]

/-- The partition lies on the device, and reads of it return parts of these contents. -/
structure Partition.LiesOn (dev : BlockRead) (p : Partition) (contents : List UInt8) : Prop where
  length : contents.length = p.length.toNat
  inside : p.start.toNat + p.length.toNat ≤ dev.sizeBytes.toNat
  reads : ∀ off len, off + len ≤ p.length.toNat →
    dev.readAt (p.start.toNat + off) len = .ok (slice contents off len)

/-- The window is all there is to see: nothing is indexed past the end of a buffer, and sniffing
a partition that begins on its device says what the whole partition is classified as. -/
theorem sniff_classifies :
    (∀ buf, (classify buf).isSome) ∧
      ∀ (dev : BlockRead) (p : Partition) (contents : List UInt8), p.LiesOn dev contents →
        p.start < dev.sizeBytes → sniff dev p = word (classify contents) := by
  constructor
  · exact classify_isSome
  · intro dev p contents lies begins
    obtain ⟨len, found, size⟩ := sniffLength_of_lt begins
    have inside := lies.inside
    have window : len.toNat = min 65536 p.length.toNat := by omega
    have read := lies.reads 0 len.toNat (by omega)
    rw [Nat.add_zero] at read
    have cut : slice contents 0 len.toNat = contents.take sniffWindow.toNat := by
      rw [slice, List.drop_zero, window, ← lies.length, toNat_sniffWindow, ← List.take_eq_take_min]
    unfold sniff BlockRead.read
    rw [found, exact_ok_bind, read]
    change word (classify (slice contents 0 len.toNat)) = _
    rw [cut, classify_take]

/-! ## A small container -/

/-- One sector of zeros, and the beginning of an APFS container. -/
def apfsDisk : ByteDevice where
  bytes := List.replicate 544 0 ++ [0x4E, 0x58, 0x53, 0x42]
  writable := false
  flushed := .ok ()
  journal := []
  length_lt := by
    simp only [List.length_append, List.length_replicate, List.length_cons, List.length_nil]
    omega

theorem length_apfsDisk : apfsDisk.bytes.length = 548 := by
  simp only [apfsDisk, List.length_append, List.length_replicate, List.length_cons,
    List.length_nil]

/-- A partition of the container's disk. -/
def apfsPartition (start length : UInt64) : Partition where
  start := start
  length := length
  kind := .mbr 0xAF false
  label := none
  uuid := none
  slot := some 0
  issues := 0
  availableLength := length

theorem liesOn_apfsDisk {start length : UInt64} (inside : start.toNat + length.toNat ≤ 548) :
    (apfsPartition start length).LiesOn apfsDisk
      (slice apfsDisk.bytes start.toNat length.toNat) where
  length := length_slice (by rw [length_apfsDisk]; exact inside)
  inside := by
    rw [apfsDisk.holds.size, length_apfsDisk]
    exact inside
  reads off len small := by
    change off + len ≤ length.toNat at small
    have present : start.toNat + off + len ≤ apfsDisk.bytes.length := by
      rw [length_apfsDisk]
      omega
    have read := apfsDisk.holds.reads (start.toNat + off) len present
    rw [slice_slice small]
    exact read

theorem sniff_apfsDisk :
    sniff apfsDisk (apfsPartition 512 36) = word (classify (slice apfsDisk.bytes 512 36)) ∧
      classify (slice apfsDisk.bytes 512 36) = some .apfs := by
  constructor
  · exact sniff_classifies.2 apfsDisk (apfsPartition 512 36) _ (liesOn_apfsDisk (by decide))
      (by decide +kernel)
  · decide +kernel

/-- An empty partition at the end of its device lies on it and is refused, though an empty buffer
is classified. -/
theorem sniff_emptyPartition :
    (apfsPartition 548 0).LiesOn apfsDisk [] ∧
      sniff apfsDisk (apfsPartition 548 0) ≠ word (classify []) := by
  constructor
  · exact liesOn_apfsDisk (by decide)
  · have refused : sniff apfsDisk (apfsPartition 548 0) =
        exact (.error (.block (.shortRead 548 0 0))) := sniff_of_le (by decide +kernel)
    have empty : classify [] = some .unknown := by decide +kernel
    rw [refused, empty]
    intro same
    cases same

end DiskPartitions
