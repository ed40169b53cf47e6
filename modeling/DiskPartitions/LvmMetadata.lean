import DiskPartitions.BlockDevices
import DiskPartitions.Refusals
import DiskPartitions.Utf8Text
import Mathlib.Data.List.Sort

/-!
# The metadata text of a volume group

LVM2 describes a volume group as text: sections, `key = value`, strings, integers, lists
and comments.  The text is parsed into a tree of values, and the tree is read as the
group's physical volumes and its logical volumes with their segments.
-/

namespace DiskPartitions

open Refusals Utf8

/-- Bytes in the sectors the metadata counts in. -/
def lvmSector : Nat := 512

/-- Why a physical or logical volume could not be read. -/
inductive LvmError
  | block (error : BlockError)
  | noLabel (device : Nat)
  | badChecksum (device : Nat) (what : String)
  | corrupt (reason : String)
  | malformed (line : Nat) (reason : String)
  | noSuchVolume (name : String)
  | missingPv (uuid : String)
  | unsupported (reason : String)
  deriving DecidableEq, Repr

/-- The message an error prints; a failure of the block layer prints its own. -/
def LvmError.message : LvmError → String
  | .block _ => "block"
  | .noLabel device => s!"device {device}: no LVM2 label"
  | .badChecksum device what => s!"device {device}: {what} checksum mismatch"
  | .corrupt reason => s!"corrupt: {reason}"
  | .malformed line reason => s!"metadata line {line}: {reason}"
  | .noSuchVolume name => s!"no logical volume {name.quote}"
  | .missingPv uuid => s!"physical volume {uuid} not given"
  | .unsupported reason => s!"unsupported: {reason}"

/-! ## Values -/

/-- A value in the metadata text; `nested` is a section, its keys in file order. -/
inductive Value
  | int (value : Int)
  | str (text : String)
  | list (items : List Value)
  | nested (entries : List (String × Value))

/-- The entries between the braces of a section, in file order. -/
abbrev Section := List (String × Value)

namespace Section

def get (entries : Section) (key : String) : Option Value :=
  (entries.find? fun entry => entry.1 = key).map Prod.snd

def int (entries : Section) (key : String) : Except LvmError Int :=
  match entries.get key with
  | some (.int value) => .ok value
  | _ => .error (.corrupt s!"{key}: expected an integer")

def uint (entries : Section) (key : String) : Except LvmError Nat := do
  let value ← entries.int key
  refuseIf (value < 0) (.corrupt s!"{key}: negative")
  .ok value.toNat

def str (entries : Section) (key : String) : Except LvmError String :=
  match entries.get key with
  | some (.str text) => .ok text
  | _ => .error (.corrupt s!"{key}: expected a string")

/-- The section under a key. -/
def inner (entries : Section) (key : String) : Except LvmError Section :=
  match entries.get key with
  | some (.nested body) => .ok body
  | _ => .error (.corrupt s!"{key}: expected a section")

/-- The sections among the entries. -/
def sections (entries : Section) : List (String × Section) :=
  entries.filterMap fun entry =>
    match entry.2 with
    | .nested body => some (entry.1, body)
    | _ => none

end Section

/-! ## Parser -/

/-- The bytes still to read, the line they start in, and how many sections are open. -/
structure Parser where
  rest : List UInt8
  line : Nat
  depth : Nat

namespace Parser

def err (p : Parser) (reason : String) : LvmError := .malformed p.line reason

/-- Leave out blanks and comments; `comment` says that one has begun. -/
def skipFrom (comment : Bool) : List UInt8 → Nat → List UInt8 × Nat
  | [], line => ([], line)
  | c :: rest, line =>
      if c = '\n'.toUInt8 then skipFrom false rest (line + 1)
      else if comment then skipFrom true rest line
      else if c = ' '.toUInt8 ∨ c = '\t'.toUInt8 ∨ c = '\r'.toUInt8 then skipFrom false rest line
      else if c = '#'.toUInt8 then skipFrom true rest line
      else (c :: rest, line)

def skip (p : Parser) : Parser :=
  let (rest, line) := skipFrom false p.rest p.line
  { p with rest, line }

def isDigit (c : UInt8) : Bool := '0'.toUInt8 ≤ c && c ≤ '9'.toUInt8

/-- A letter, a digit or one of `_.-+`. -/
def isName (c : UInt8) : Bool :=
  isDigit c || ('A'.toUInt8 ≤ c && c ≤ 'Z'.toUInt8) || ('a'.toUInt8 ≤ c && c ≤ 'z'.toUInt8) ||
    ['_', '.', '-', '+'].any fun other => c = other.toUInt8

def ident (p : Parser) : Except LvmError (String × Parser) := do
  let p := p.skip
  let name := p.rest.takeWhile isName
  refuseIf (name = []) (p.err "expected a name")
  .ok (fromUtf8Lossy name, { p with rest := p.rest.dropWhile isName })

/-- The bytes of a string after its opening quote, up to the closing one, with what follows
it and the line that is in. -/
def stringBytes : List UInt8 → Nat → Except LvmError (List UInt8 × List UInt8 × Nat)
  | [], line => .error (.malformed line "unterminated string")
  | c :: rest, line =>
      if c = '"'.toUInt8 then .ok ([], rest, line)
      else if c = '\\'.toUInt8 then
        match rest with
        | [] => .error (.malformed line "unterminated string")
        | escaped :: rest => do
            let (out, rest, line) ← stringBytes rest line
            .ok (escaped :: out, rest, line)
      else do
        let (out, rest, line) ← stringBytes rest (if c = '\n'.toUInt8 then line + 1 else line)
        .ok (c :: out, rest, line)

def string (p : Parser) : Except LvmError (String × Parser) := do
  let (out, rest, line) ← stringBytes p.rest p.line
  .ok (fromUtf8Lossy out, { p with rest, line })

/-- The number a run of digits denotes. -/
def digitsValue (digits : List UInt8) : Nat :=
  digits.foldl (fun value digit => value * 10 + (digit.toNat - 48)) 0

/-- A decimal integer of 64 bits; `none` without a digit or out of range. -/
def parseInt (negative : Bool) (digits : List UInt8) : Option Int :=
  if digits = [] then none
  else if negative then
    if digitsValue digits ≤ 2 ^ 63 then some (-(digitsValue digits : Int)) else none
  else if digitsValue digits < 2 ^ 63 then some (digitsValue digits) else none

/-- An integer, at its sign or its first digit. -/
def integer (p : Parser) : Except LvmError (Value × Parser) := do
  let negative := p.rest.head? = some '-'.toUInt8
  let digits := (p.rest.drop (if negative then 1 else 0)).takeWhile isDigit
  let written := p.rest.take ((if negative then 1 else 0) + digits.length)
  let p := { p with rest := p.rest.drop written.length }
  let value ← orRefuse (parseInt negative digits) (p.err s!"bad integer {fromUtf8Lossy written}")
  .ok (.int value, p)

mutual

/-- A value.  Every two calls consume a byte, which bounds the fuel. -/
def value : Nat → Parser → Except LvmError (Value × Parser)
  | 0, p => .error (p.err "expected a value")
  | fuel + 1, p =>
      let p := p.skip
      match p.rest with
      | [] => .error (p.err "expected a value")
      | c :: rest =>
          if c = '"'.toUInt8 then do
            let (text, p) ← string { p with rest }
            .ok (.str text, p)
          else if c = '['.toUInt8 then do
            let (found, p) ← items fuel { p with rest }
            .ok (.list found, p)
          else if c = '-'.toUInt8 ∨ isDigit c then integer p
          else .error (p.err "expected a value")

/-- The items of a list after its opening bracket, through the closing one. -/
def items : Nat → Parser → Except LvmError (List Value × Parser)
  | 0, p => .error (p.err "unterminated list")
  | fuel + 1, p =>
      let p := p.skip
      match p.rest with
      | [] => .error (p.err "unterminated list")
      | c :: rest =>
          if c = ']'.toUInt8 then .ok ([], { p with rest })
          else if c = ','.toUInt8 then items fuel { p with rest }
          else do
            let (item, p) ← value fuel p
            let (more, p) ← items fuel p
            .ok (item :: more, p)

end

mutual

/-- The body of a section: of the whole text, or up to its closing brace. -/
def sectionBody : Nat → Bool → Parser → Except LvmError (Section × Parser)
  | 0, _, p => .error (p.err "unterminated section")
  | fuel + 1, top, p => do
      let p := { p with depth := p.depth + 1 }
      refuseIf (32 < p.depth) (p.err "sections nested too deep")
      let (out, p) ← entries fuel top p
      .ok (out, { p with depth := p.depth - 1 })

/-- The entries of a section, up to where it ends. -/
def entries : Nat → Bool → Parser → Except LvmError (Section × Parser)
  | 0, _, p => .error (p.err "unterminated section")
  | fuel + 1, top, p =>
      let p := p.skip
      match p.rest with
      | [] => if top then .ok ([], p) else .error (p.err "unterminated section")
      | c :: rest =>
          if c = '}'.toUInt8 ∧ ¬ top then .ok ([], { p with rest })
          else do
            let (key, p) ← p.ident
            let p := p.skip
            match p.rest with
            | [] => .error (p.err s!"expected '=' or '\x7b' after {key}")
            | c :: rest =>
                if c = '{'.toUInt8 then do
                  let (body, p) ← sectionBody fuel false { p with rest }
                  let (more, p) ← entries fuel top p
                  .ok ((key, .nested body) :: more, p)
                else if c = '='.toUInt8 then do
                  let (found, p) ← value (2 * rest.length + 2) { p with rest }
                  let (more, p) ← entries fuel top p
                  .ok ((key, found) :: more, p)
                else .error (p.err s!"expected '=' or '\x7b' after {key}")

end

end Parser

/-- Parse metadata text into its top-level section. -/
def parseMetadata (text : String) : Except LvmError Section := do
  let bytes := asBytes text
  let (top, _) ← Parser.sectionBody (2 * bytes.length + 2) true
    { rest := bytes, line := 1, depth := 0 }
  .ok top

/-- ASCII text is parsed byte by byte. -/
theorem parseMetadata_ascii {bytes : List UInt8} (ascii : ∀ byte ∈ bytes, byte.toNat < 0x80) :
    parseMetadata (fromUtf8Lossy bytes) = (do
      let (top, _) ← Parser.sectionBody (2 * bytes.length + 2) true
        { rest := bytes, line := 1, depth := 0 }
      .ok top) := by
  rw [parseMetadata, asBytes_fromUtf8Lossy ascii]

/-! ## Volume groups -/

/-- A physical volume as the metadata describes it, its offsets in bytes. -/
structure PhysicalVolume where
  name : String
  uuid : String
  peStart : Nat
  peCount : Nat
  deriving DecidableEq, Repr

/-- One stripe of a segment: a physical volume and the extent the stripe starts at. -/
structure Stripe where
  pv : String
  startExtent : Nat
  deriving DecidableEq, Repr

/-- A run of a logical volume's extents.  Several stripes have a stripe size. -/
structure Segment where
  startExtent : Nat
  extentCount : Nat
  kind : String
  stripeSize : Nat
  stripes : List Stripe
  images : List String
  metadata : List String
  thinPool : Option String
  deviceId : Option Nat
  externalOrigin : Option String
  sized : 1 < stripes.length → 0 < stripeSize
  deriving DecidableEq, Repr

structure LogicalVolumeInfo where
  name : String
  id : String
  segments : List Segment
  deriving DecidableEq, Repr

/-- A volume group, as its metadata describes it.  Its extents are not empty. -/
structure VolumeGroup where
  name : String
  id : String
  seqno : Nat
  extentSize : Nat
  physicalVolumes : List PhysicalVolume
  logicalVolumes : List LogicalVolumeInfo
  extentSize_pos : 0 < extentSize
  deriving DecidableEq, Repr

/-- A count of sectors as bytes, refused when it leaves a word. -/
def sectorBytes (entries : Section) (key : String) : Except LvmError Nat := do
  let sectors ← entries.uint key
  refuseIf (2 ^ 64 ≤ sectors * lvmSector) (.corrupt key)
  .ok (sectors * lvmSector)

/-- The items of a list two by two, each pair as `pick` reads it. -/
def pairsOf {α : Type} (pick : Value → Value → Option α) (error : LvmError) :
    List Value → Except LvmError (List α)
  | [] => .ok []
  | [_] => .error error
  | first :: second :: rest => do
      let pair ← orRefuse (pick first second) error
      let more ← pairsOf pick error rest
      .ok (pair :: more)

/-- The list under a key. -/
def Section.listOf (entries : Section) (key : String) (error : LvmError) :
    Except LvmError (List Value) :=
  match entries.get key with
  | some (.list found) => .ok found
  | _ => .error error

def stripePair : Value → Value → Option Stripe
  | .str pv, .int extent => if 0 ≤ extent then some ⟨pv, extent.toNat⟩ else none
  | _, _ => none

/-- A metadata sub-volume and its image. -/
def raidPair : Value → Value → Option (String × String)
  | .str rmeta, .str image => some (rmeta, image)
  | _, _ => none

def mirrorPair : Value → Value → Option String
  | .str image, .int extent => if extent = 0 then some image else none
  | _, _ => none

/-- The stripes of a `striped` segment and their size; a single stripe has none. -/
def segmentStripes (seg : Section) (place : String) :
    Except LvmError { found : List Stripe × Nat // 1 < found.1.length → 0 < found.2 } := do
  let listed ← seg.listOf "stripes" (.corrupt s!"{place}: no stripes")
  let stripes ← pairsOf stripePair (.corrupt s!"{place}: stripes list") listed
  let count ← seg.uint "stripe_count"
  refuseIf (count ≠ stripes.length ∨ count = 0)
    (.corrupt s!"{place}: stripe_count {count}, {stripes.length} stripes")
  if several : 1 < stripes.length then do
    let size ← sectorBytes seg "stripe_size"
    if positive : 0 < size then .ok ⟨(stripes, size), fun _ => positive⟩
    else .error (.corrupt "stripe_size")
  else .ok ⟨(stripes, 0), fun many => absurd many several⟩

/-- The metadata sub-volumes and the images of a segment that has them. -/
def segmentImages (seg : Section) (kind place : String) :
    Except LvmError (List String × List String) :=
  if kind.startsWith "raid" then do
    let listed ← seg.listOf "raids" (.corrupt s!"{place}: no raids")
    let pairs ← pairsOf raidPair (.unsupported
      s!"{place}: a raids list without a metadata sub-volume per image") listed
    .ok (pairs.map Prod.fst, pairs.map Prod.snd)
  else if kind = "thin-pool" then do
    let tmeta ← seg.str "metadata"
    let pool ← seg.str "pool"
    .ok ([tmeta], [pool])
  else if kind = "mirror" then do
    let listed ← seg.listOf "mirrors" (.corrupt s!"{place}: no mirrors")
    let images ← pairsOf mirrorPair (.unsupported
      s!"{place}: a mirror image that does not start at its sub-volume's first extent") listed
    .ok ([], images)
  else .ok ([], [])

/-- A segment, from its section in the volume `lvName`. -/
def segmentFromMetadata (lvName key : String) (seg : Section) : Except LvmError Segment := do
  let place := s!"{lvName}/{key}"
  let kind ← seg.str "type"
  let striped ← if kind = "striped" then segmentStripes seg place
    else .ok ⟨([], 0), fun many => absurd many (by simp)⟩
  let (metadata, images) ← segmentImages seg kind place
  let startExtent ← seg.uint "start_extent"
  let extentCount ← seg.uint "extent_count"
  .ok {
    startExtent
    extentCount
    kind
    stripeSize := striped.1.2
    stripes := striped.1.1
    images
    metadata
    thinPool := (seg.str "thin_pool").toOption
    deviceId := (seg.uint "device_id").toOption
    externalOrigin := (seg.str "external_origin").toOption
    sized := striped.2 }

/-- A logical volume, its segments ordered by their first extent. -/
def volumeFromMetadata (lv : String × Section) : Except LvmError LogicalVolumeInfo := do
  let segments ← (lv.2.sections.filter fun entry => entry.1.startsWith "segment").mapM
    fun entry => segmentFromMetadata lv.1 entry.1 entry.2
  .ok {
    name := lv.1
    id := ((lv.2.str "id").toOption).getD ""
    segments := segments.insertionSort fun first second => first.startExtent ≤ second.startExtent }

def pvFromMetadata (pv : String × Section) : Except LvmError PhysicalVolume := do
  let id ← pv.2.str "id"
  let peStart ← sectorBytes pv.2 "pe_start"
  let peCount ← pv.2.uint "pe_count"
  .ok { name := pv.1, uuid := String.ofList (id.toList.filter (· ≠ '-')), peStart, peCount }

/-- Interpret parsed metadata text. -/
def VolumeGroup.fromMetadata (top : Section) : Except LvmError VolumeGroup := do
  let (name, vg) ← orRefuse top.sections.head? (.corrupt "no volume group section")
  let extentSize ← sectorBytes vg "extent_size"
  if extentSize_pos : 0 < extentSize then do
    let pvs ← vg.inner "physical_volumes"
    let physicalVolumes ← pvs.sections.mapM pvFromMetadata
    let lvs := match vg.get "logical_volumes" with
      | some (.nested body) => Section.sections body
      | _ => []
    let logicalVolumes ← lvs.mapM volumeFromMetadata
    let id ← vg.str "id"
    let seqno ← vg.uint "seqno"
    .ok { name, id, seqno, extentSize, physicalVolumes, logicalVolumes, extentSize_pos }
  else .error (.corrupt "extent_size")

end DiskPartitions
