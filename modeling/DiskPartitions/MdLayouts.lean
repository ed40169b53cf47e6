import DiskPartitions.MdSuperblocks

/-!
# Where an array keeps its chunks

The placement of RAID4, RAID5 and RAID6 rows, the numbering of a row's data
chunks in RAID6's second syndrome, and the copies of a RAID10 chunk.  A row is
one chunk on every member; `stripe` is its number and `i` a data chunk in it.
-/

namespace DiskPartitions

def levelLinear : Int := -1
def levelRaid0 : Int := 0
def levelRaid1 : Int := 1
def levelRaid4 : Int := 4
def levelRaid5 : Int := 5
def levelRaid6 : Int := 6
def levelRaid10 : Int := 10

/-- The parity layouts, by the number the superblock stores. -/
def layoutLeftAsymmetric : Nat := 0
def layoutRightAsymmetric : Nat := 1
def layoutLeftSymmetric : Nat := 2
def layoutRightSymmetric : Nat := 3
def layoutParityFirst : Nat := 4
def layoutParityLast : Nat := 5
def layoutRotatingZeroRestart : Nat := 8
def layoutRotatingNRestart : Nat := 9
def layoutRotatingNContinue : Nat := 10
def layoutLeftAsymmetric6 : Nat := 16
def layoutRightAsymmetric6 : Nat := 17
def layoutLeftSymmetric6 : Nat := 18
def layoutRightSymmetric6 : Nat := 19
def layoutParityFirst6 : Nat := 20

/-! ## Parity rows -/

/-- P at `pd`, Q after it, or on member 0 when P is last, and data in member
order around them. -/
def raid6Asymmetric (n i pd : Nat) : Nat × Nat × Nat :=
  if pd = n - 1 then (i + 1, pd, 0)
  else if pd ≤ i then (i + 2, pd, pd + 1)
  else (i, pd, pd + 1)

/-- The layouts `raid6Map` places. -/
def raid6LayoutKnown (layout : Nat) : Bool :=
  layout ≤ layoutParityLast ||
    (layoutRotatingZeroRestart ≤ layout && layout ≤ layoutRotatingNContinue) ||
    (layoutLeftAsymmetric6 ≤ layout && layout ≤ layoutParityFirst6)

/-- The members holding data chunk `i`, P and Q of a RAID6 row.  The last case
is `unreachable!` in the source, which refuses every other layout at assembly.
Arrays count their members in 32 bits, so of the sums only `stripe + 1` could wrap. -/
def raid6Map (layout n stripe i : Nat) : Nat × Nat × Nat :=
  let data := n - 2
  if layout = layoutLeftAsymmetric then raid6Asymmetric n i (n - 1 - stripe % n)
  else if layout = layoutRotatingNRestart then
    raid6Asymmetric n i (n - 1 - (stripe + 1) % 2 ^ 64 % n)
  else if layout = layoutRightAsymmetric ∨ layout = layoutRotatingZeroRestart then
    raid6Asymmetric n i (stripe % n)
  else if layout = layoutLeftSymmetric then
    let pd := n - 1 - stripe % n
    ((pd + 2 + i) % n, pd, (pd + 1) % n)
  else if layout = layoutRightSymmetric then
    let pd := stripe % n
    ((pd + 2 + i) % n, pd, (pd + 1) % n)
  else if layout = layoutParityFirst then (i + 2, 0, 1)
  else if layout = layoutParityLast then (i, data, data + 1)
  else if layout = layoutRotatingNContinue then
    let pd := n - 1 - stripe % n
    ((pd + 1 + i) % n, pd, (pd + n - 1) % n)
  else if layout = layoutLeftAsymmetric6 ∨ layout = layoutRightAsymmetric6 then
    let pd := if layout = layoutLeftAsymmetric6 then data - stripe % (n - 1) else stripe % (n - 1)
    (if pd ≤ i then i + 1 else i, pd, n - 1)
  else if layout = layoutLeftSymmetric6 ∨ layout = layoutRightSymmetric6 then
    let pd := if layout = layoutLeftSymmetric6 then data - stripe % (n - 1) else stripe % (n - 1)
    ((pd + 1 + i) % (n - 1), pd, n - 1)
  else if layout = layoutParityFirst6 then (i + 1, 0, n - 1)
  else (0, 0, 0)

/-- Where a chunk lives: its data member, its row's parity member, and the Q
member at RAID6. -/
def parityMap (level : Int) (layout n stripe i : Nat) : Nat × Nat × Option Nat :=
  if level = levelRaid6 then
    let (dd, pd, qd) := raid6Map layout n stripe i
    (dd, pd, some qd)
  else
    let data := n - 1
    let (pd, dd) :=
      if layout = layoutLeftAsymmetric then
        let pd := data - stripe % n
        (pd, if pd ≤ i then i + 1 else i)
      else if layout = layoutRightAsymmetric then
        let pd := stripe % n
        (pd, if pd ≤ i then i + 1 else i)
      else if layout = layoutLeftSymmetric then
        let pd := data - stripe % n
        (pd, (pd + 1 + i) % n)
      else if layout = layoutRightSymmetric then
        let pd := stripe % n
        (pd, (pd + 1 + i) % n)
      else if layout = layoutParityFirst then (0, i + 1)
      else (data, i)
    (dd, pd, none)

/-! ## Exponents of the second syndrome -/

/-- Walk the members from `m` to `dd`, counting in `slot` those that hold data.
The walk is at most once around the `n` members. -/
def countData (n pd qd dd : Nat) : Nat → Nat → Nat → Nat
  | 0, _, slot => slot
  | fuel + 1, m, slot =>
      if m = dd then slot
      else countData n pd qd dd fuel ((m + 1) % n) (if m ≠ pd ∧ m ≠ qd then slot + 1 else slot)

/-- The power of two that multiplies data chunk `i` in Q: its member in the
three DDF layouts, and otherwise its place among the data members counted from
the one after Q. -/
def qExponent (layout n stripe i : Nat) : Int :=
  let (dd, pd, qd) := raid6Map layout n stripe i
  if layoutRotatingZeroRestart ≤ layout ∧ layout ≤ layoutRotatingNContinue then dd
  else
    let d0 := if qd = n - 1 then 0 else qd + 1
    countData n pd qd dd n d0 0

/-! ## RAID10 copies -/

/-- Far copies are one row apart rather than one section of the member apart. -/
def raid10Offset : Nat := 1 <<< 16

/-- A RAID10 layout: copies side by side, copies further down, and the rows in
one far section. -/
structure Raid10 where
  near : Nat
  far : Nat
  offset : Bool
  stride : Nat
  deriving DecidableEq, Repr

namespace Raid10

/-- Copies side by side on consecutive members and none further down. -/
def ofNear (near : Nat) : Raid10 where
  near
  far := 1
  offset := false
  stride := 0

/-- Where the primary copy of chunk `c` is, over `d` members. -/
def primary (geo : Raid10) (d c : Nat) : Nat × Nat :=
  let place := c * geo.near
  let row := place / d
  (place % d, if geo.offset then row * geo.far else row)

/-- Every place chunk `c` is kept, the primary copy first, as slot and row. -/
def copies (geo : Raid10) (d c : Nat) : List (Nat × Nat) :=
  (List.range geo.near).flatMap fun i =>
    let place := c * geo.near + i
    let dev := place % d
    let row := place / d
    (List.range geo.far).map fun k =>
      ((dev + k * geo.near) % d,
        if geo.offset then row * geo.far + k else row + k * geo.stride)

end Raid10

end DiskPartitions
