import DiskPartitions.GaloisBytes
import DiskPartitions.MdLayouts

/-!
# Reading a chunk through the members

A RAID4, 5, 6 or 10 chunk is read from the member that keeps it.  When that
member is missing it is read from another RAID10 copy, or rebuilt from the rest
of its row: through P at RAID4 and RAID5, and through P, Q or both at RAID6.
The members are given by a function that reads a range of one of them, or
answers `none` for a missing one.
-/

namespace DiskPartitions

/-- Reads `len` bytes at an offset of a slot's data; `none` for a missing member. -/
abbrev ReadMember := Nat → Nat → Nat → Except BlockError (Option (List UInt8))

/-- How an array places its chunks over its members. -/
structure Striping where
  level : Int
  layout : Nat
  chunk : Nat
  members : Nat
  raid10 : Option Raid10

/-- Each byte of one buffer with the matching byte of another added in. -/
def xorInto (buf other : List UInt8) : List UInt8 :=
  List.zipWith (fun b t => b ^^^ t) buf other

/-- The first copy that can be read; `last` is the failure met so far. -/
def readCopies (member : ReadMember) (chunk within len : Nat) (gone : BlockError) :
    List (Nat × Nat) → Option BlockError → Except BlockError (List UInt8)
  | [], last => .error (last.getD gone)
  | (slot, row) :: rest, last =>
      match member slot (row * chunk + within) len with
      | .ok (some bytes) => .ok bytes
      | .ok none => readCopies member chunk within len gone rest last
      | .error error => readCopies member chunk within len gone rest (some error)

/-- Add the members of a row to a buffer, leaving out the data member that is
rebuilt and the Q member. -/
def xorRow (member : ReadMember) (dd : Nat) (qd : Option Nat) (off len : Nat) :
    List Nat → List UInt8 → Except BlockError (List UInt8)
  | [], buf => .ok buf
  | slot :: rest, buf =>
      if slot = dd ∨ some slot = qd then xorRow member dd qd off len rest buf
      else do
        match ← member slot off len with
        | none =>
            .error (.custom s!"md: slot {slot} missing while reconstructing slot {dd}")
        | some tmp => xorRow member dd qd off len rest (xorInto buf tmp)

/-- P and Q of a row with the data chunks read so far taken out, and the data
chunks found missing. -/
structure Syndromes where
  p : List UInt8
  q : List UInt8
  missing : List Nat

/-- Take data chunk `i` of a row out of its syndromes, or note it missing. -/
def Syndromes.take (member : ReadMember) (layout n stripe off len : Nat) (row : Syndromes)
    (i : Nat) : Except BlockError Syndromes := do
  let slot := (parityMap levelRaid6 layout n stripe i).1
  match ← member slot off len with
  | none => .ok { row with missing := row.missing ++ [i] }
  | some d =>
      let g := gfPow2 (qExponent layout n stripe i)
      .ok { row with
        p := xorInto row.p d
        q := xorInto row.q (d.map (gfMul g)) }

/-- Solve a row's syndromes for data chunk `x`, once the present data chunks are
taken out: through P when no other data chunk is missing, through Q when P is
missing too, and through both when a second data chunk is missing. -/
def solveRow (layout n stripe x : Nat) (haveP haveQ : Bool) (row : Syndromes) :
    Except BlockError (List UInt8) :=
  let lost : BlockError := .custom
    s!"md: RAID6 row {stripe} has lost data chunks {row.missing}, P present {haveP}, Q present {haveQ}"
  match row.missing with
  | [_] =>
      if haveP then .ok row.p
      else if haveQ then
        let inv := gfPow2 (-qExponent layout n stripe x)
        .ok (row.q.map (gfMul inv))
      else .error lost
  | [a, b] =>
      if haveP ∧ haveQ then
        let y := if a = x then b else a
        let ex := qExponent layout n stripe x
        let ey := qExponent layout n stripe y
        let gyx := gfPow2 (ey - ex)
        if gyx ^^^ 1 = 0 then .error lost
        else
          let denom := gfInv (gyx ^^^ 1)
          let ca := gfMul gyx denom
          let cb := gfMul (gfPow2 (-ex)) denom
          .ok (xorInto (row.p.map (gfMul ca)) (row.q.map (gfMul cb)))
      else .error lost
  | _ => .error lost

/-- Rebuild data chunk `x` of a RAID6 row, whose member is missing. -/
def rebuildRaid6 (s : Striping) (member : ReadMember) (stripe x off len : Nat) :
    Except BlockError (List UInt8) := do
  let n := s.members
  let layout := s.layout
  let pd := (parityMap levelRaid6 layout n stripe 0).2.1
  -- `expect`: a RAID6 row has Q
  let qd := (parityMap levelRaid6 layout n stripe 0).2.2.getD 0
  let p ← member pd off len
  let q ← member qd off len
  let zeros := List.replicate len 0
  let row ← (List.range (n - 2)).foldlM (Syndromes.take member layout n stripe off len)
    { p := p.getD zeros, q := q.getD zeros, missing := [] }
  solveRow layout n stripe x p.isSome q.isSome row

/-- Read `len` bytes of array chunk `k`, from `within` bytes into it and not
past its end. -/
def readChunk (s : Striping) (member : ReadMember) (k within len : Nat) :
    Except BlockError (List UInt8) :=
  let n := s.members
  match s.raid10 with
  | some geo =>
      readCopies member s.chunk within len (.custom s!"md: no copy of chunk {k} is present")
        (geo.primary n k :: (geo.copies n k).drop 1) none
  | none => do
      let parity := if s.level = levelRaid6 then 2 else 1
      let data := n - parity
      let stripe := k / data
      let layout := if s.level = levelRaid4 then layoutParityLast else s.layout
      let dd := (parityMap s.level layout n stripe (k % data)).1
      let qd := (parityMap s.level layout n stripe (k % data)).2.2
      let off := stripe * s.chunk + within
      match ← member dd off len with
      | some bytes => .ok bytes
      | none =>
          if s.level = levelRaid6 then rebuildRaid6 s member stripe (k % data) off len
          else xorRow member dd qd off len (List.range n) (List.replicate len 0)

end DiskPartitions
