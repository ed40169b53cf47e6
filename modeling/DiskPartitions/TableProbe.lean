import DiskPartitions.GptReader
import DiskPartitions.MbrTable

/-!
# Probing a device

Which table a device carries: a GPT by the signature at LBA 1, else the MBR of
LBA 0, with the backup GPT consulted only when the caller asks for it.
-/

namespace DiskPartitions

open Slices Refusals

/-- Byte offset of LBA 1 on a disk whose logical sectors are 4096 bytes. -/
def fourKLba1 : Nat := 4096

/-- Which copy of the table a probe read, and what the other copy says. -/
inductive TableSource
  | mbr
  | primary
  | primaryBackupStale (reason : String)
  | recoveredFromBackup
  deriving DecidableEq, Repr

/-- LBA 1, or zeros when the device ends before it. -/
def readLba1 (dev : BlockRead) : Except Error (List UInt8) :=
  match dev.readAt 512 512 with
  | .ok lba1 => .ok lba1
  | .error error =>
      let pastTheEnd := match error with
        | .shortRead _ _ _ => true
        | .outOfBounds _ _ _ => true
        | _ => false
      let saidSo := decide (1 ≤ dev.sizeBytes ∧ dev.sizeBytes < 1024)
      if pastTheEnd || saidSo then .ok (List.replicate 512 0) else .error (.block error)

section Checksums

variable (crc32 : List UInt8 → UInt32)

/-- Why the device looks like a 4Kn disk, when it carries a GPT header where such
a disk would put one. -/
def looksLike4knGpt (dev : BlockRead) : Option String := do
  let block ← (dev.readAt fourKLba1 4096).toOption
  let header ← (parseHeaderBlock crc32 block).toOption
  if header.myLba ≠ 1 then none
  else some ("this disk keeps its GPT at byte 4096, so its logical sectors are 4096 bytes " ++
    "(4Kn); this crate reads partition tables in 512-byte units only")

/-- The backup's partitions, or the error that sent the probe here. -/
def recoverFromBackup (dev : BlockRead) (primary : Error) :
    Except Error (TableKind × List Partition × TableSource) :=
  match parseBackup crc32 dev with
  | .ok parts => .ok (.gpt, parts, .recoveredFromBackup)
  | .error _ => .error primary

/-- What a comparison with the backup says about the source. -/
def sourceOf : BackupStatus → TableSource
  | .ok => .primary
  | .mismatch reason => .primaryBackupStale reason

/-- A device whose LBA 1 has the GPT signature. -/
def probeGpt (dev : BlockRead) (consultBackup : Bool) (lba1 : List UInt8) :
    Except Error (TableKind × List Partition × TableSource) :=
  match parseGpt crc32 dev lba1 with
  | .ok parts =>
      if consultBackup then .ok (.gpt, parts, sourceOf (validateBackup crc32 dev parts))
      else .ok (.gpt, parts, .primary)
  | .error primary =>
      if consultBackup then recoverFromBackup crc32 dev primary else .error primary

/-- A device whose LBA 1 has no GPT signature. -/
def probeMbr (dev : BlockRead) (consultBackup : Bool) (lba0 : List UInt8) :
    Except Error (TableKind × List Partition × TableSource) :=
  if ¬ hasBootSignature lba0 then .error .noPartitionTable
  else
    match (if hasGptMarker lba0 then looksLike4knGpt crc32 dev else none) with
    | some why => .error (.unsupportedSectorSize why)
    | none =>
        if isProtective lba0 then
          let primary := .gptCorrupt "protective MBR present but no GPT signature"
          if consultBackup then recoverFromBackup crc32 dev primary else .error primary
        else .ok (.mbr, parseMbr lba0 dev.sizeBytes, .mbr)

def probeInner (dev : BlockRead) (consultBackup : Bool) :
    Except Error (TableKind × List Partition × TableSource) := do
  let lba0 ← dev.read 0 512
  let lba1 ← readLba1 dev
  if slice lba1 0 8 = gptSignature then probeGpt crc32 dev consultBackup lba1
  else probeMbr crc32 dev consultBackup lba0

/-- Probe the device, never reading the backup GPT. -/
def probe (dev : BlockRead) : Except Error (TableKind × List Partition) :=
  (probeInner crc32 dev false).map fun found => (found.1, found.2.1)

/-- Probe the device, consulting the backup GPT and saying which copy was read. -/
def probeWithStatus (dev : BlockRead) : Except Error (TableKind × List Partition × TableSource) :=
  probeInner crc32 dev true

end Checksums

/-- LBA 1 of the device is there and starts with the GPT signature. -/
def ByteDevice.HasGptSignature (dev : ByteDevice) : Prop :=
  1024 ≤ dev.bytes.length ∧ slice dev.bytes 512 8 = gptSignature

instance (dev : ByteDevice) : Decidable dev.HasGptSignature :=
  inferInstanceAs (Decidable (_ ∧ _))

section ByteDevices

variable (crc32 : List UInt8 → UInt32) {dev : ByteDevice} (consultBackup : Bool)

theorem read_of_le {offset len : Nat} (inside : offset + len ≤ dev.bytes.length) :
    BlockRead.read dev offset len = .ok (slice dev.bytes offset len) := by
  change (dev.readAt offset len).mapError Error.block = _
  rw [ByteDevice.readAt_of_le inside]
  rfl

theorem readLba1_of_le (large : 1024 ≤ dev.bytes.length) :
    readLba1 dev = .ok (slice dev.bytes 512 512) := by
  unfold readLba1
  change (match dev.readAt 512 512 with | .ok lba1 => _ | .error error => _) = _
  rw [ByteDevice.readAt_of_le (by omega)]

theorem readLba1_of_lt (small : dev.bytes.length < 1024) :
    readLba1 dev = .ok (List.replicate 512 0) := by
  have read : dev.readAt 512 512 = .error (.shortRead 512 512 (dev.bytes.length - 512)) :=
    if_neg (by omega)
  unfold readLba1
  change (match dev.readAt 512 512 with | .ok lba1 => _ | .error error => _) = _
  rw [read]
  rfl

/-- A byte device with two sectors gives both of them to a probe. -/
theorem probeInner_eq (large : 1024 ≤ dev.bytes.length) :
    probeInner crc32 dev consultBackup =
      if slice (slice dev.bytes 512 512) 0 8 = gptSignature then
        probeGpt crc32 dev consultBackup (slice dev.bytes 512 512)
      else probeMbr crc32 dev consultBackup (slice dev.bytes 0 512) := by
  rw [probeInner, read_of_le (by omega), readLba1_of_le large]
  rfl

theorem probeInner_of_signature (signature : dev.HasGptSignature) :
    probeInner crc32 dev consultBackup =
      probeGpt crc32 dev consultBackup (slice dev.bytes 512 512) := by
  rw [probeInner_eq crc32 consultBackup signature.1, slice_slice (by omega)]
  exact if_pos signature.2

/-- Without the signature at LBA 1 a probe looks at LBA 0 only. -/
theorem probeInner_of_no_signature (large : 512 ≤ dev.bytes.length)
    (unsigned : ¬ dev.HasGptSignature) :
    probeInner crc32 dev consultBackup =
      probeMbr crc32 dev consultBackup (slice dev.bytes 0 512) := by
  by_cases two : 1024 ≤ dev.bytes.length
  · rw [probeInner_eq crc32 consultBackup two, slice_slice (by omega)]
    exact if_neg fun signed => unsigned ⟨two, signed⟩
  · rw [probeInner, read_of_le (by omega), readLba1_of_lt (by omega), ok_bind, ok_bind,
      slice_replicate _ (by omega)]
    exact if_neg (by decide)

/-- What is read from a GPT is never reported as an MBR. -/
theorem probeGpt_ne_mbr {lba1 : List UInt8} {parts : List Partition} {source : TableSource} :
    probeGpt crc32 dev consultBackup lba1 ≠ .ok (.mbr, parts, source) := by
  unfold probeGpt recoverFromBackup
  split
  · split <;> simp
  · split
    · split <;> simp
    · simp

end ByteDevices

end DiskPartitions
