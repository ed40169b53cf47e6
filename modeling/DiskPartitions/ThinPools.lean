import DiskPartitions.CyclicSums
import DiskPartitions.LvmMetadata
import DiskPartitions.MdArrays

/-!
# The metadata of a thin pool

A thin pool keeps, in 4 KiB blocks of its metadata sub-volume, a superblock and a two-level
btree: the first level maps a thin device to the root of its block map, and the second a
block of the device to a block of the pool's data sub-volume.  Each block starts with a
CRC32C of the rest of it, combined with a constant for its kind; one that does not match is
refused.
-/

namespace DiskPartitions

open Slices LittleEndian Refusals

/-- Metadata block size in bytes. -/
def thinBlock : Nat := 4096

def thinMagic : Nat := 27022010
def superblockCsumXor : UInt32 := 160774
def btreeCsumXor : UInt32 := 121107

def internalNode : Nat := 1
def leafNode : Nat := 2

/-- Size of a node's header; its keys follow, then its values. -/
def nodeHeader : Nat := 32

/-- A walk longer than this follows a cycle. -/
def thinMaxDepth : Nat := 16

/-- The low bits of a mapping are the time it was made; the rest is the data block. -/
def timeBits : Nat := 24

/-- Reads `len` bytes at a byte offset of the metadata sub-volume. -/
abbrev ReadBlock := Nat → Nat → Except BlockError (List UInt8)

/-- What reading a thin volume needs from the pool's superblock. -/
structure ThinSuperblock where
  dataMappingRoot : Nat
  dataBlockSize : Nat
  deriving DecidableEq, Repr

/-! ## Checked blocks -/

/-- The entry of the Castagnoli table for a byte. -/
def crc32cEntry (index : Nat) : UInt32 :=
  (List.range 8).foldl (fun crc _ => CyclicSums.bitStep 0x82f63b78 crc) (UInt32.ofNat index)

def crc32cTable : List UInt32 := (List.range 256).map crc32cEntry

/-- The CRC32C register after the bytes from an all-ones start, not inverted. -/
def crc32cRegister (bytes : List UInt8) : UInt32 :=
  bytes.foldl (fun crc byte =>
    crc32cTable.getD ((crc ^^^ byte.toUInt32) &&& 0xff).toNat 0 ^^^ (crc >>> 8)) 0xFFFFFFFF

theorem crc32cTable_getD {index : Nat} (byte : index < 256) :
    crc32cTable.getD index 0 = crc32cEntry index := by
  rw [crc32cTable, List.getD_eq_getElem?_getD, List.getElem?_map, List.getElem?_range byte,
    Option.map_some, Option.getD_some]

/-- A byte through the table is the eight steps of a byte. -/
theorem crc32cEntry_xor (crc : UInt32) (byte : UInt8) :
    crc32cTable.getD ((crc ^^^ byte.toUInt32) &&& 0xff).toNat 0 ^^^ (crc >>> 8) =
      CyclicSums.byteStep 0x82f63b78 crc byte := by
  have low : ((crc ^^^ byte.toUInt32) &&& 0xff).toNat < 256 := by
    rw [UInt32.toNat_and]
    exact Nat.lt_succ_of_le Nat.and_le_right
  rw [crc32cTable_getD low, crc32cEntry, UInt32.ofNat_toNat, CyclicSums.byteStep_eq]

/-- The sum by table is the bitwise one: each byte into the low byte of the register, and then
eight steps, from all ones. -/
theorem crc32cRegister_eq_register (bytes : List UInt8) :
    crc32cRegister bytes = CyclicSums.register 0x82f63b78 0xFFFFFFFF bytes := by
  have step : (fun (crc : UInt32) (byte : UInt8) =>
      crc32cTable.getD ((crc ^^^ byte.toUInt32) &&& 0xff).toNat 0 ^^^ (crc >>> 8)) =
      CyclicSums.byteStep 0x82f63b78 := by
    ext1 crc
    ext1 byte
    exact crc32cEntry_xor crc byte
  rw [crc32cRegister, step, CyclicSums.register]

/-- Metadata block `n`, its checksum verified. -/
def checkedBlock (read : ReadBlock) (n : Nat) (xor : UInt32) (what : String) :
    Except LvmError (List UInt8) := do
  refuseIf (2 ^ 64 ≤ n * thinBlock) (.corrupt s!"{what}: block {n} is out of range")
  let b ← (read (n * thinBlock) thinBlock).mapError .block
  let want := crc32cRegister (b.drop 4) ^^^ xor
  refuseIf (field b 0 4 ≠ want.toNat)
    (.corrupt s!"{what} at metadata block {n}: checksum mismatch")
  .ok b

/-- The superblock at metadata block 0. -/
def thinSuperblock (read : ReadBlock) : Except LvmError ThinSuperblock := do
  let b ← checkedBlock read 0 superblockCsumXor "thin pool superblock"
  refuseIf (field b 32 8 ≠ thinMagic) (.corrupt "thin pool superblock: bad magic")
  let version := field b 40 4
  refuseIf (¬ (1 ≤ version ∧ version ≤ 2)) (.unsupported s!"thin pool metadata version {version}")
  let incompat := field b 360 4
  refuseIf (incompat ≠ 0)
    (.unsupported s!"thin pool metadata incompatible features {hex incompat}")
  let size := field b 340 4 * lvmSector
  refuseIf (size ≠ thinBlock) (.corrupt s!"thin pool metadata block size {size}")
  let dataBlockSize := field b 336 4 * lvmSector
  refuseIf (dataBlockSize = 0) (.corrupt "thin pool data block size 0")
  .ok { dataMappingRoot := field b 320 8, dataBlockSize }

/-! ## The btree -/

/-- How many of the leading items satisfy the predicate: where it stops holding, in a list
it divides. -/
def partitionPoint {α : Type} (holds : α → Bool) (items : List α) : Nat :=
  (items.takeWhile holds).length

/-- The keys of a node of `nr` entries. -/
def nodeKeys (b : List UInt8) (nr : Nat) : List Nat :=
  (List.range nr).map fun i => field b (nodeHeader + 8 * i) 8

/-- Value `i` of a node with room for `max` entries. -/
def nodeValue (b : List UInt8) (max i : Nat) : Nat :=
  field b (nodeHeader + 8 * max + 8 * i) 8

/-- The value under `key` in the tree that the node at `place` is the root of, at most
`depth` nodes down. -/
def lookupFrom (read : ReadBlock) (root key : Nat) : Nat → Nat → Except LvmError (Option Nat)
  | 0, _ => .error (.corrupt s!"thin pool btree from block {root} is deeper than {thinMaxDepth}")
  | depth + 1, place => do
      let b ← checkedBlock read place btreeCsumXor "thin pool btree node"
      refuseIf (field b 8 8 ≠ place)
        (.corrupt s!"thin pool btree node at block {place} says it is block {field b 8 8}")
      let flags := field b 4 4
      let nr := field b 16 4
      let max := field b 20 4
      let valueSize := field b 24 4
      refuseIf (valueSize ≠ 8 ∨ max < nr ∨ thinBlock < nodeHeader + max * (8 + valueSize))
        (.corrupt
          s!"thin pool btree node at block {place}: {nr} of {max} entries of {valueSize} bytes")
      let keys := nodeKeys b nr
      -- the last entry whose key is at or below `key`: the child that covers it, or the leaf
      -- entry that may be it
      match partitionPoint (fun k => decide (k ≤ key)) keys with
      | 0 => .ok none
      | i + 1 =>
          if flags = internalNode then lookupFrom read root key depth (nodeValue b max i)
          else if flags = leafNode then
            .ok (if keys.getD i 0 = key then some (nodeValue b max i) else none)
          else .error (.corrupt s!"thin pool btree node at block {place}: flags {hex flags}")

/-- The value under `key` in the btree at `root`. -/
def lookup (read : ReadBlock) (root key : Nat) : Except LvmError (Option Nat) :=
  lookupFrom read root key thinMaxDepth root

/-- The root of thin device `dev`'s block map, if the pool has the device. -/
def deviceRoot (read : ReadBlock) (sb : ThinSuperblock) (dev : Nat) :
    Except LvmError (Option Nat) :=
  lookup read sb.dataMappingRoot dev

/-- The pool data block that block `vb` of a device is kept in; `none` for a hole. -/
def dataBlock (read : ReadBlock) (root vb : Nat) : Except LvmError (Option Nat) := do
  let found ← lookup read root vb
  .ok (found.map fun value => value >>> timeBits)

end DiskPartitions
