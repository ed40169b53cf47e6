import DiskPartitions.SearchTrees
import DiskPartitions.ThinPools

/-!
# The btrees of a thin pool

The metadata of a pool holds a map from thin devices to roots and, at each root, one from the
blocks of a device to where they are kept.  Both are btrees of checked blocks, and looking a
key up in one gives what it holds under the key.
-/

namespace DiskPartitions

open Slices LittleEndian Refusals SearchTrees

/-! ## Nodes -/

/-- Metadata block `n` is `b`, under a right checksum. -/
structure HoldsBlock (read : ReadBlock) (n : Nat) (xor : UInt32) (b : List UInt8) : Prop where
  inside : n * thinBlock < 2 ^ 64
  reads : read (n * thinBlock) thinBlock = .ok b
  checksum : field b 0 4 = (crc32cRegister (b.drop 4) ^^^ xor).toNat

theorem HoldsBlock.checkedBlock {read : ReadBlock} {n : Nat} {xor : UInt32} {b : List UInt8}
    (holds : HoldsBlock read n xor b) (what : String) : checkedBlock read n xor what = .ok b := by
  unfold DiskPartitions.checkedBlock
  rw [refuseIf_of_not (Nat.not_le.mpr holds.inside), ok_bind, holds.reads]
  change (refuseIf _ _ >>= _) = _
  rw [refuseIf_of_not (not_ne_iff.mpr holds.checksum), ok_bind]

/-- A block is a btree node of a kind, with its entries as keys and 64-bit values. -/
structure IsNode (b : List UInt8) (kind place : Nat) (entries : List (Nat × Nat)) : Prop where
  number : field b 8 8 = place
  kind : field b 4 4 = kind
  count : field b 16 4 = entries.length
  width : field b 24 4 = 8
  enough : entries.length ≤ field b 20 4
  room : nodeHeader + field b 20 4 * 16 ≤ thinBlock
  keys : ∀ i entry, entries[i]? = some entry → field b (nodeHeader + 8 * i) 8 = entry.1
  values : ∀ i entry, entries[i]? = some entry → nodeValue b (field b 20 4) i = entry.2

theorem IsNode.nodeKeys_eq {b : List UInt8} {kind place : Nat} {entries : List (Nat × Nat)}
    (node : IsNode b kind place entries) : nodeKeys b entries.length = entries.map Prod.fst := by
  refine List.ext_getElem (by simp [nodeKeys]) fun i _ inside => ?_
  rw [List.length_map] at inside
  rw [List.getElem_map]
  simp only [nodeKeys, List.getElem_map, List.getElem_range]
  exact node.keys i _ (List.getElem?_eq_getElem inside)

/-- The metadata holds a node. -/
def HoldsNode (read : ReadBlock) (kind place : Nat) (entries : List (Nat × Nat)) : Prop :=
  ∃ b, HoldsBlock read place btreeCsumXor b ∧ IsNode b kind place entries

/-- The metadata holds a well-formed btree, of at most as many levels as a walk takes. -/
def HoldsTree (read : ReadBlock) (root : Nat) (map : Nat → Option Nat) : Prop :=
  Holds (HoldsNode read leafNode) (HoldsNode read internalNode) thinMaxDepth root map

/-! ## Lookups -/

/-- A step of a lookup is decided by the last entry at or below the key. -/
theorem lookupFrom_of_node {read : ReadBlock} {kind place : Nat} {entries : List (Nat × Nat)}
    (holds : HoldsNode read kind place entries) (root key depth : Nat) :
    lookupFrom read root key (depth + 1) place =
      match lastBelow key entries with
      | none => .ok none
      | some entry =>
          if kind = internalNode then lookupFrom read root key depth entry.2
          else if kind = leafNode then .ok (if entry.1 = key then some entry.2 else none)
          else .error (.corrupt s!"thin pool btree node at block {place}: flags {hex kind}") := by
  obtain ⟨b, block, node⟩ := holds
  have fits : ¬ (field b 24 4 ≠ 8 ∨ field b 20 4 < field b 16 4 ∨
      thinBlock < nodeHeader + field b 20 4 * (8 + field b 24 4)) := by
    have := node.enough
    have := node.room
    rw [node.width, node.count]
    omega
  rw [lookupFrom, block.checkedBlock, ok_bind, refuseIf_of_not (not_ne_iff.mpr node.number), ok_bind]
  dsimp only
  rw [refuseIf_of_not fits, ok_bind, node.count, node.nodeKeys_eq, node.kind]
  unfold partitionPoint
  rw [List.takeWhile_map, List.length_map, lastBelow_eq_getElem?]
  have keyed : (fun k => decide (k ≤ key)) ∘ Prod.fst =
      fun entry : Nat × Nat => decide (entry.1 ≤ key) := rfl
  rw [keyed]
  cases counted : (entries.takeWhile fun entry => decide (entry.1 ≤ key)).length with
  | zero => rfl
  | succ i =>
      have inside : i < entries.length := by
        have shorter := (List.takeWhile_prefix fun entry : Nat × Nat =>
          decide (entry.1 ≤ key) : _ <+: entries).length_le
        omega
      have own := List.getElem?_eq_getElem inside
      dsimp only
      rw [own, node.values i _ own, List.getD_eq_getElem?_getD, List.getElem?_map, own]
      rfl

/-- A lookup gives what the tree holds under the key. -/
theorem HoldsTree.lookup {read : ReadBlock} {root : Nat} {map : Nat → Option Nat}
    (holds : HoldsTree read root map) (key : Nat) :
    lookup read root key = .ok (map key) := by
  refine @Holds.walk Nat Nat Nat _ _ (HoldsNode read leafNode) (HoldsNode read internalNode)
    (lookupFrom read root key) .ok key ?_ ?_ _ _ _ holds
  · intro depth place entries here
    rw [lookupFrom_of_node here]
    cases lastBelow key entries with
    | none => rfl
    | some entry => rfl
  · intro depth place children here
    rw [lookupFrom_of_node here]
    cases lastBelow key children with
    | none => rfl
    | some entry => rfl

/-! ## The two levels -/

/-- A mapping as the tree keeps it: the data block, and in the low bits the time. -/
def packTime (mapping : Nat × Nat) : Nat := mapping.1 <<< timeBits + mapping.2

theorem packTime_shiftRight {mapping : Nat × Nat} (timed : mapping.2 < 2 ^ timeBits) :
    packTime mapping >>> timeBits = mapping.1 := by
  rw [packTime, Nat.shiftLeft_eq, Nat.shiftRight_eq_div_pow, Nat.mul_comm,
    Nat.mul_add_div (by decide), Nat.div_eq_of_lt timed, Nat.add_zero]

/-- A tree of the mappings of one device's blocks. -/
def HoldsBlocks (read : ReadBlock) (root : Nat) (map : Nat → Option (Nat × Nat)) : Prop :=
  HoldsTree read root fun block => (map block).map packTime

/-- The metadata holds a map from devices and blocks to data blocks and times: a tree of the
devices' roots, and at each a tree of the device's blocks. -/
structure HoldsMappings (read : ReadBlock) (root : Nat)
    (map : Nat → Nat → Option (Nat × Nat)) : Prop where
  timed : ∀ dev block mapping, map dev block = some mapping → mapping.2 < 2 ^ timeBits
  trees : ∃ roots : Nat → Option Nat, HoldsTree read root roots ∧
    (∀ dev place, roots dev = some place → HoldsBlocks read place (map dev)) ∧
    ∀ dev, roots dev = none → ∀ block, map dev block = none

/-- The root of a device that the pool has is that of its blocks. -/
theorem HoldsMappings.deviceRoot {read : ReadBlock} {sb : ThinSuperblock}
    {map : Nat → Nat → Option (Nat × Nat)} (holds : HoldsMappings read sb.dataMappingRoot map)
    {dev place : Nat} (found : deviceRoot read sb dev = .ok (some place)) :
    HoldsBlocks read place (map dev) := by
  obtain ⟨roots, devices, blocks, _⟩ := holds.trees
  unfold DiskPartitions.deviceRoot at found
  rw [devices.lookup] at found
  exact blocks dev place (Except.ok.inj found)

/-- A block of a device is kept where the map says. -/
theorem HoldsBlocks.dataBlock {read : ReadBlock} {root : Nat} {map : Nat → Option (Nat × Nat)}
    (holds : HoldsBlocks read root map)
    (timed : ∀ block mapping, map block = some mapping → mapping.2 < 2 ^ timeBits) (block : Nat) :
    dataBlock read root block = .ok ((map block).map Prod.fst) := by
  unfold DiskPartitions.dataBlock
  rw [HoldsTree.lookup holds, ok_bind]
  cases own : map block with
  | none => rfl
  | some mapping =>
      rw [Option.map_some, Option.map_some, Option.map_some, packTime_shiftRight (timed _ _ own)]

end DiskPartitions
