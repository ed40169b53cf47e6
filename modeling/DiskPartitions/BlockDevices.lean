import DiskPartitions.FallibleState
import DiskPartitions.LittleEndian
import DiskPartitions.WriteJournal

/-!
# Block devices

The block layer the crate reads and writes through.  A `BlockRead` answers
reads of byte ranges and reports a size, which need not be the truth.  A
`ByteDevice` is the writable device of the development: an array of bytes whose
in-range reads and writes succeed, and which keeps a journal of the writes it
was asked for, so that an interrupted run can be replayed.
-/

namespace DiskPartitions

open Slices WriteJournal FallibleState

/-- Failures of the block layer, as far as the crate tells them apart. -/
inductive BlockError
  | shortRead (offset want got : Nat)
  | outOfBounds (offset len size : Nat)
  | readOnly
  | custom (message : String)
  deriving DecidableEq, Repr

/-- A random-access source of bytes.  A read that succeeds fills the whole
buffer it was given. -/
structure BlockRead where
  sizeBytes : UInt64
  readAt : Nat → Nat → Except BlockError (List UInt8)
  length_readAt : ∀ {offset len : Nat} {bytes : List UInt8},
    readAt offset len = .ok bytes → bytes.length = len

/-- Reads of the device within its size return these bytes. -/
structure BlockRead.Holds (dev : BlockRead) (bytes : List UInt8) : Prop where
  size : dev.sizeBytes.toNat = bytes.length
  reads : ∀ off len, off + len ≤ bytes.length → dev.readAt off len = .ok (slice bytes off len)

/-- Why a partition table could not be read, edited or written. -/
inductive Error
  | block (error : BlockError)
  | noPartitionTable
  | gptHeaderCrc
  | gptEntriesCrc
  | gptCorrupt (reason : String)
  | invalid (reason : String)
  | deviceTooSmall
  | unsupportedSectorSize (reason : String)
  deriving DecidableEq, Repr

/-- A device that is an array of bytes.  `flushed` is what its `flush` answers,
and `journal` lists the writes it carried out, oldest first. -/
structure ByteDevice where
  bytes : List UInt8
  writable : Bool
  flushed : Except BlockError Unit
  journal : List (Write UInt8)
  length_lt : bytes.length < 2 ^ 64

namespace ByteDevice

def sizeBytes (dev : ByteDevice) : UInt64 := UInt64.ofNat dev.bytes.length

@[simp]
theorem toNat_sizeBytes (dev : ByteDevice) : dev.sizeBytes.toNat = dev.bytes.length :=
  UInt64.toNat_ofNat_of_lt' dev.length_lt

def readAt (dev : ByteDevice) (offset len : Nat) : Except BlockError (List UInt8) :=
  if offset + len ≤ dev.bytes.length then .ok (slice dev.bytes offset len)
  else .error (.shortRead offset len (dev.bytes.length - offset))

theorem readAt_of_le {dev : ByteDevice} {offset len : Nat}
    (inside : offset + len ≤ dev.bytes.length) :
    dev.readAt offset len = .ok (slice dev.bytes offset len) :=
  if_pos inside

/-- The byte array as a read-only source. -/
def toBlockRead (dev : ByteDevice) : BlockRead where
  sizeBytes := dev.sizeBytes
  readAt := dev.readAt
  length_readAt := by
    intro offset len bytes read
    unfold readAt at read
    split at read
    · next inside =>
      rw [← Except.ok.inj read]
      exact length_slice inside
    · cases read

instance : Coe ByteDevice BlockRead := ⟨toBlockRead⟩

theorem holds (dev : ByteDevice) : dev.toBlockRead.Holds dev.bytes where
  size := dev.toNat_sizeBytes
  reads _ _ inside := readAt_of_le inside

/-- The device after an in-range write. -/
def written (dev : ByteDevice) (write : Write UInt8)
    (inside : write.Inside dev.bytes.length) : ByteDevice where
  bytes := write.apply dev.bytes
  writable := dev.writable
  flushed := dev.flushed
  journal := dev.journal ++ [write]
  length_lt := by
    rw [Write.length_apply inside]
    exact dev.length_lt

theorem bytes_written (dev : ByteDevice) (write : Write UInt8)
    (inside : write.Inside dev.bytes.length) :
    (dev.written write inside).bytes = write.apply dev.bytes := rfl

/-- The device after several in-range writes. -/
def writtenAll (dev : ByteDevice) (writes : List (Write UInt8))
    (inside : ∀ write ∈ writes, write.Inside dev.bytes.length) : ByteDevice where
  bytes := applyAll writes dev.bytes
  writable := dev.writable
  flushed := dev.flushed
  journal := dev.journal ++ writes
  length_lt := by
    rw [length_applyAll inside]
    exact dev.length_lt

instance (write : Write UInt8) (size : Nat) : Decidable (write.Inside size) :=
  inferInstanceAs (Decidable (_ ≤ _))

end ByteDevice

/-- A computation on a device that can fail.  What it wrote before failing stays
written. -/
abbrev DeviceM := Fallible Error ByteDevice

namespace DeviceM

def readAt (offset len : Nat) : DeviceM (List UInt8) :=
  ExceptT.mk fun dev => ((dev.readAt offset len).mapError .block, dev)

def writeAt (offset : Nat) (data : List UInt8) : DeviceM Unit :=
  ExceptT.mk fun dev =>
    if inside : Write.Inside ⟨offset, data⟩ dev.bytes.length then
      (.ok (), dev.written ⟨offset, data⟩ inside)
    else (.error (.block (.outOfBounds offset data.length dev.bytes.length)), dev)

/-- Carry out several writes, in order. -/
def writeAll : List (Write UInt8) → DeviceM Unit
  | [] => pure ()
  | write :: writes => do
      writeAt write.offset write.data
      writeAll writes

def flush : DeviceM Unit := ExceptT.mk fun dev => (dev.flushed.mapError .block, dev)

variable {β γ : Type}

@[simp]
theorem exec_readAt (offset len : Nat) (dev : ByteDevice) :
    (readAt offset len).exec dev = ((dev.readAt offset len).mapError .block, dev) := rfl

@[simp]
theorem exec_flush (dev : ByteDevice) :
    flush.exec dev = (dev.flushed.mapError .block, dev) := rfl

theorem exec_writeAt_of_inside {offset : Nat} {data : List UInt8} {dev : ByteDevice}
    (inside : Write.Inside ⟨offset, data⟩ dev.bytes.length) :
    (writeAt offset data).exec dev = (.ok (), dev.written ⟨offset, data⟩ inside) :=
  dif_pos inside

/-- A read before a planned action belongs to its plan. -/
theorem planned_read {offset len : Nat} {dev : ByteDevice} {finish : γ → DeviceM β}
    {action : List UInt8 → DeviceM β} {plan : List UInt8 → Except Error γ}
    (rest : ∀ bytes, Fallible.Planned (action bytes) (plan bytes) finish dev) :
    Fallible.Planned (readAt offset len >>= action) ((dev.readAt offset len).mapError .block >>= plan)
      finish dev := by
  unfold Fallible.Planned
  rw [Fallible.exec_bind, exec_readAt]
  cases (dev.readAt offset len).mapError Error.block with
  | error error => rfl
  | ok bytes => exact rest bytes

/-- Writes that all stay inside the device succeed. -/
theorem exec_writeAll_of_inside {writes : List (Write UInt8)} {dev : ByteDevice}
    (inside : ∀ write ∈ writes, write.Inside dev.bytes.length) :
    (writeAll writes).exec dev = (.ok (), dev.writtenAll writes inside) := by
  induction writes generalizing dev with
  | nil =>
      rcases dev with ⟨bytes, writable, flushed, journal, length_lt⟩
      simp [writeAll, ByteDevice.writtenAll]
  | cons write writes ih =>
      have first : write.Inside dev.bytes.length := inside write (by simp)
      rw [writeAll, Fallible.exec_bind, exec_writeAt_of_inside first]
      simp only
      rw [ih (by
        intro other member
        change other.Inside (write.apply dev.bytes).length
        rw [Write.length_apply first]
        exact inside other (by simp [member]))]
      simp [ByteDevice.writtenAll, ByteDevice.written]

end DeviceM

end DiskPartitions
