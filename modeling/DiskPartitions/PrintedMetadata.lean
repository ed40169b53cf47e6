import DiskPartitions.MetadataNesting

/-!
# Metadata printed

The trees that some text is parsed as: names before the values, integers of 64 bits, no section in
a list, and sections nested at most 31 deep below the top.  Each of them is printed, an entry a
line, as a text that is parsed as the tree itself.
-/

namespace Utf8

theorem asBytes_append (first second : String) :
    asBytes (first ++ second) = asBytes first ++ asBytes second := by
  unfold asBytes
  rw [String.toList_append, List.flatMap_append]

theorem asBytes_ofList (chars : List Char) :
    asBytes (String.ofList chars) = chars.flatMap String.utf8EncodeChar := by
  unfold asBytes
  rw [String.toList_ofList]

/-- A character past ASCII has no byte in ASCII. -/
theorem le_utf8EncodeChar {c : Char} (past : 0x80 ≤ c.toNat) :
    ∀ byte ∈ String.utf8EncodeChar c, 0x80 ≤ byte.toNat := by
  intro byte member
  have valid : c.toNat < 0xD800 ∨ 0xDFFF < c.toNat ∧ c.toNat < 0x110000 := c.valid
  unfold String.utf8EncodeChar at member
  change 0x80 ≤ c.val.toNat at past
  change c.val.toNat < _ ∨ _ < c.val.toNat ∧ c.val.toNat < _ at valid
  dsimp only at member
  generalize c.val.toNat = code at past valid member
  have high : ∀ n, 0x80 ≤ n → n < 256 → 0x80 ≤ (UInt8.ofNat n).toNat := by
    intro n least most
    rw [UInt8.toNat_ofNat_of_lt' most]
    exact least
  rw [if_neg (by omega)] at member
  split at member
  next two =>
    simp only [List.mem_cons, List.not_mem_nil, or_false] at member
    rcases member with rfl | rfl
    all_goals exact high _ (by omega) (by omega)
  next =>
    split at member
    next three =>
      simp only [List.mem_cons, List.not_mem_nil, or_false] at member
      rcases member with rfl | rfl | rfl
      all_goals exact high _ (by omega) (by omega)
    next four =>
      simp only [List.mem_cons, List.not_mem_nil, or_false] at member
      rcases member with rfl | rfl | rfl | rfl
      all_goals exact high _ (by omega) (by omega)

end Utf8

namespace DiskPartitions

open Refusals Utf8

/-! ## Trees -/

/-- A value of an entry that is no section. -/
inductive Plain : Value → Prop
  | int {value : Int} (least : -2 ^ 63 ≤ value) (most : value < 2 ^ 63) : Plain (.int value)
  | str (text : String) : Plain (.str text)
  | list {items : List Value} (each : ∀ item ∈ items, Plain item) : Plain (.list items)

/-- A section below which `left` more may be opened. -/
inductive Tree : Nat → Section → Prop
  | empty {left : Nat} : Tree left []
  | value {left : Nat} {key : String} {found : Value} {rest : Section} (name : Parser.Name key)
      (own : Plain found) (later : Tree left rest) : Tree left ((key, found) :: rest)
  | nested {left : Nat} {key : String} {body rest : Section} (name : Parser.Name key)
      (own : Tree left body) (later : Tree (left + 1) rest) :
      Tree (left + 1) ((key, .nested body) :: rest)

/-! ## Printing -/

/-- A text with a backslash before each quote and backslash. -/
def quotedText (text : String) : String :=
  String.ofList (text.toList.flatMap fun c => if c = '"' ∨ c = '\\' then ['\\', c] else [c])

/-- What stands between a name and its value. -/
def Value.mark : Value → String
  | .nested _ => " "
  | _ => " = "

mutual

def Value.printed : Value → String
  | .int value => toString value
  | .str text => "\"" ++ (quotedText text ++ "\"")
  | .list found => "[" ++ printedItems true found
  | .nested body => "\x7b" ++ (printedEntries body ++ "\x7d")

/-- The items of a list and its closing bracket. -/
def printedItems : Bool → List Value → String
  | _, [] => "]"
  | first, item :: rest =>
      (if first then "" else ", ") ++ (item.printed ++ printedItems false rest)

def printedEntries : List (String × Value) → String
  | [] => "\n"
  | entry :: rest => "\n" ++ (printedEntry entry ++ printedEntries rest)

def printedEntry : String × Value → String
  | (key, found) => key ++ (found.mark ++ found.printed)

end

example : printedEntries [("vg", .nested [("n", .int (-7)), ("l", .list [.str "]\"", .int 2])])] =
    "\nvg \x7b\nn = -7\nl = [\"]\\\"\", 2]\n\x7d\n" := by
  decide +kernel

/-! ## What is printed is read -/

namespace Parser

theorem escaped_append (first second : List UInt8) :
    escaped (first ++ second) = escaped first ++ escaped second := by
  induction first with
  | nil => rfl
  | cons c rest ih =>
      rw [List.cons_append, escaped, escaped, ih]
      split
      next => rfl
      next => rfl

/-- A character past ASCII is no quote and no backslash. -/
theorem escaped_of_le {bytes : List UInt8} (past : ∀ byte ∈ bytes, 0x80 ≤ byte.toNat) :
    escaped bytes = bytes := by
  induction bytes with
  | nil => rfl
  | cons c rest ih =>
      have other : ¬ (c = '"'.toUInt8 ∨ c = '\\'.toUInt8) := by
        have high := past c List.mem_cons_self
        rintro (rfl | rfl)
        all_goals
          revert high
          decide
      rw [escaped, if_neg other, ih fun byte later => past byte (List.mem_cons_of_mem c later)]

theorem escaped_utf8EncodeChar (c : Char) :
    escaped (String.utf8EncodeChar c) =
      (if c = '"' ∨ c = '\\' then ['\\', c] else [c]).flatMap String.utf8EncodeChar := by
  by_cases ascii : c.toNat < 0x80
  · have all : ∀ n : Fin 128, escaped (String.utf8EncodeChar (Char.ofNat n.val)) =
        (if Char.ofNat n.val = '"' ∨ Char.ofNat n.val = '\\' then ['\\', Char.ofNat n.val]
          else [Char.ofNat n.val]).flatMap String.utf8EncodeChar := by
      decide +kernel
    have own := all ⟨c.toNat, ascii⟩
    rw [Char.ofNat_toNat] at own
    exact own
  · have other : ¬ (c = '"' ∨ c = '\\') := by
      rintro (rfl | rfl)
      all_goals exact ascii (by decide)
    rw [escaped_of_le (le_utf8EncodeChar (Nat.not_lt.mp ascii)), if_neg other,
      List.flatMap_singleton]

/-- The bytes of a quoted text are the quoted bytes. -/
theorem asBytes_quotedText (text : String) :
    asBytes (quotedText text) = escaped (asBytes text) := by
  unfold quotedText
  rw [asBytes_ofList, asBytes]
  induction text.toList with
  | nil => rfl
  | cons c rest ih =>
      rw [List.flatMap_cons, List.flatMap_cons, List.flatMap_append, escaped_append, ih,
        escaped_utf8EncodeChar]

/-- A digit is written as its own byte. -/
theorem utf8EncodeChar_digit {c : Char} (digit : c.isDigit = true) :
    String.utf8EncodeChar c = [UInt8.ofNat c.toNat] ∧ isDigit (UInt8.ofNat c.toNat) = true ∧
      (UInt8.ofNat c.toNat).toNat = c.toNat := by
  have range := Char.isDigit_iff_toNat.mp digit
  have all : ∀ n : Fin 128, 48 ≤ n.val → n.val ≤ 57 →
      String.utf8EncodeChar (Char.ofNat n.val) = [UInt8.ofNat n.val] ∧
        isDigit (UInt8.ofNat n.val) = true ∧ (UInt8.ofNat n.val).toNat = n.val := by
    decide +kernel
  have own := all ⟨c.toNat, Nat.lt_of_le_of_lt range.2 (by decide)⟩ range.1 range.2
  rw [Char.ofNat_toNat] at own
  exact own

/-- Digits are read as the number that is written with them. -/
theorem digits_bytes {chars : List Char} (each : ∀ c ∈ chars, c.isDigit = true) (start : Nat) :
    (∀ byte ∈ chars.flatMap String.utf8EncodeChar, isDigit byte = true) ∧
      (chars.flatMap String.utf8EncodeChar).foldl
        (fun value digit => value * 10 + (digit.toNat - 48)) start =
          Nat.ofDigitChars 10 chars start := by
  induction chars generalizing start with
  | nil => exact ⟨by simp, rfl⟩
  | cons c rest ih =>
      obtain ⟨one, digit, same⟩ := utf8EncodeChar_digit (each c List.mem_cons_self)
      have later := ih fun other member => each other (List.mem_cons_of_mem c member)
      rw [List.flatMap_cons, one, List.singleton_append]
      constructor
      · intro byte member
        rcases List.mem_cons.mp member with rfl | member
        · exact digit
        · exact (later start).1 byte member
      · rw [List.foldl_cons, (later _).2, Nat.ofDigitChars_cons, same, Nat.mul_comm]
        rfl

theorem asBytes_repr (n : Nat) :
    asBytes n.repr ≠ [] ∧ (∀ byte ∈ asBytes n.repr, isDigit byte = true) ∧
      digitsValue (asBytes n.repr) = n := by
  have same : asBytes n.repr = (Nat.toDigits 10 n).flatMap String.utf8EncodeChar :=
    asBytes_ofList (Nat.toDigits 10 n)
  have each : ∀ c ∈ Nat.toDigits 10 n, c.isDigit = true := fun c member =>
    Nat.isDigit_of_mem_toDigits (by decide) (by decide) member
  obtain ⟨digits, value⟩ := digits_bytes each 0
  rw [same]
  refine ⟨?_, digits, ?_⟩
  · cases chars : Nat.toDigits 10 n with
    | nil => exact absurd chars Nat.toDigits_ne_nil
    | cons c rest =>
        have own := (utf8EncodeChar_digit (each c (chars ▸ List.mem_cons_self))).1
        rw [List.flatMap_cons, own]
        exact List.cons_ne_nil _ _
  · unfold digitsValue
    rw [value, Nat.ofDigitChars_ten_toDigits]

/-- An integer is written in decimal. -/
theorem atom_toString {value : Int} (least : -2 ^ 63 ≤ value) (most : value < 2 ^ 63) :
    Atom (.int value) (asBytes (toString value)) := by
  rw [Int.toString_eq_repr, Int.repr_eq_if]
  split
  next positive =>
    obtain ⟨ne, digits, same⟩ := asBytes_repr value.toNat
    have own := Atom.positive ne digits (by omega)
    rw [same, Int.toNat_of_nonneg positive] at own
    exact own
  next negative =>
    obtain ⟨ne, digits, same⟩ := asBytes_repr (-value).toNat
    have own := Atom.negative ne digits (by omega)
    rw [same, Int.toNat_of_nonneg (by omega), Int.neg_neg] at own
    rw [asBytes_append]
    exact own

theorem Items.written {first : Bool} {sep text more : List UInt8} {item : Value}
    {rest : List Value} (separator : Separator first sep) (own : Written item text)
    (later : Items false rest more) : Items first (item :: rest) (sep ++ (text ++ more)) := by
  cases own with
  | atom own => exact .atom separator own later
  | list own => exact .list separator own later

theorem blank_newline : Blank ['\n'.toUInt8] := .blank (by decide) .empty

theorem blank_space : Blank [' '.toUInt8] := .blank (by decide) .empty

theorem items_printed {items : List Value}
    (each : ∀ item ∈ items, Written item (asBytes item.printed)) (first : Bool) :
    Items first items (asBytes (printedItems first items)) := by
  induction items generalizing first with
  | nil =>
      rw [printedItems]
      exact .close .empty
  | cons item rest ih =>
      have own := each item List.mem_cons_self
      have later := ih (fun other member => each other (List.mem_cons_of_mem item member)) false
      rw [printedItems, asBytes_append, asBytes_append]
      cases first with
      | true => exact .written (.first .empty) own later
      | false => exact .written (.comma .empty blank_space) own later

/-- A value that is no section is printed in the grammar of the metadata. -/
theorem written_printed {found : Value} (plain : Plain found) :
    Written found (asBytes found.printed) := by
  induction plain with
  | int least most =>
      rw [Value.printed]
      exact .atom (atom_toString least most)
  | str text =>
      rw [Value.printed, asBytes_append, asBytes_append, asBytes_quotedText]
      exact .atom (.quoted text)
  | list each ih =>
      rw [Value.printed, asBytes_append]
      exact .list (items_printed ih true)

theorem mark_of_plain {found : Value} (plain : Plain found) : found.mark = " = " := by
  cases plain with
  | int least most => rfl
  | str text => rfl
  | list each => rfl

/-- A section is printed in the grammar of the metadata. -/
theorem entries_printed {left : Nat} {found : Section} (tree : Tree left found) (after : Bool) :
    Entries left after found (asBytes (printedEntries found)) := by
  induction tree generalizing after with
  | empty =>
      rw [printedEntries]
      exact .finish blank_newline
  | @value left key found rest name own later ih =>
      have whole := Entries.value blank_newline (fun _ => List.cons_ne_nil _ _ : after = true → _)
        name blank_space blank_space (written_printed own) (ih (isInteger found))
      refine whole.congr ?_
      rw [printedEntries, printedEntry, mark_of_plain own]
      simp only [asBytes_append, List.append_assoc]
      rfl
  | @nested left key body rest name own later ihOwn ih =>
      have whole := Entries.nested blank_newline (fun _ => List.cons_ne_nil _ _ : after = true → _)
        name blank_space (ihOwn false) (ih false)
      refine whole.congr ?_
      rw [printedEntries, printedEntry, Value.mark, Value.printed]
      simp only [asBytes_append, List.append_assoc]
      rfl

/-! ## What is read is a tree -/

theorem parseInt_eq_some {negative : Bool} {digits : List UInt8} {value : Int}
    (read : parseInt negative digits = some value) : -2 ^ 63 ≤ value ∧ value < 2 ^ 63 := by
  unfold parseInt at read
  split at read
  next => cases read
  next =>
    split at read
    next =>
      split at read
      next small =>
        cases read
        omega
      next => cases read
    next =>
      split at read
      next small =>
        cases read
        omega
      next => cases read

theorem integer_eq_ok {p after : Parser} {found : Value}
    (read : integer p = .ok (found, after)) : Plain found ∧ after.depth = p.depth := by
  unfold integer at read
  obtain ⟨value, parsed, read⟩ := bind_eq_ok.mp read
  cases read
  obtain ⟨least, most⟩ := parseInt_eq_some (orRefuse_eq_ok.mp parsed)
  exact ⟨.int least most, rfl⟩

theorem string_eq_ok {p after : Parser} {text : String} (read : string p = .ok (text, after)) :
    after.depth = p.depth := by
  unfold string at read
  obtain ⟨_, _, read⟩ := bind_eq_ok.mp read
  cases read
  rfl

@[simp] theorem depth_skip (p : Parser) : p.skip.depth = p.depth := rfl

/-- The characters of a name are ASCII. -/
theorem lt_of_isName {c : UInt8} (named : isName c = true) : c.toNat < 0x80 := by
  have all : ∀ n : Fin 256, isName (UInt8.ofNat n.val) = true → n.val < 0x80 := by
    decide +kernel
  have own := all ⟨c.toNat, c.toNat_lt⟩
  rw [UInt8.ofNat_toNat] at own
  exact own named

theorem ident_eq_ok {p after : Parser} {key : String} (read : ident p = .ok (key, after)) :
    Name key ∧ after.depth = p.depth := by
  unfold ident at read
  obtain ⟨some_name, read⟩ := refuseIf_bind_eq_ok.mp read
  cases read
  have named : ∀ c ∈ p.skip.rest.takeWhile isName, isName c = true := fun c member =>
    List.mem_takeWhile_imp member
  have same := asBytes_fromUtf8Lossy fun c member => lt_of_isName (named c member)
  refine ⟨⟨?_, ?_⟩, rfl⟩
  · rw [same]
    exact some_name
  · rw [same]
    exact named

/-- A value holds no section, and leaves as many open as it found. -/
theorem values_plain (fuel : Nat) :
    (∀ p found after, value fuel p = .ok (found, after) →
      Plain found ∧ after.depth = p.depth) ∧
    ∀ p found after, items fuel p = .ok (found, after) →
      (∀ item ∈ found, Plain item) ∧ after.depth = p.depth := by
  induction fuel with
  | zero =>
      constructor
      · intro p found after read
        cases read
      · intro p found after read
        cases read
  | succ fuel ih =>
      obtain ⟨ihValue, ihItems⟩ := ih
      constructor
      · intro p found after read
        obtain ⟨c, rest, front, ⟨quote, text, inner, rfl⟩ | ⟨bracket, inner, listed, rfl⟩ | read⟩ :=
          value_eq_ok read
        · exact ⟨.str text, (string_eq_ok inner).trans (depth_skip p)⟩
        · obtain ⟨each, depth⟩ := ihItems _ _ _ listed
          exact ⟨.list each, depth.trans (depth_skip p)⟩
        · obtain ⟨plain, depth⟩ := integer_eq_ok read
          exact ⟨plain, depth.trans (depth_skip p)⟩
      · intro p found after read
        obtain ⟨c, rest, front, ⟨bracket, rfl, _⟩ | ⟨comma, read⟩ |
          ⟨item, next, more, own, later, rfl⟩⟩ := items_eq_ok read
        · have closed : items (fuel + 1) p = .ok ([], { p.skip with rest }) := by
            rw [items]
            dsimp only
            rw [front]
            exact if_pos bracket
          rw [closed] at read
          cases read
          exact ⟨by simp, depth_skip p⟩
        · obtain ⟨each, depth⟩ := ihItems _ _ _ read
          exact ⟨each, depth.trans (depth_skip p)⟩
        · obtain ⟨plain, between⟩ := ihValue _ _ _ own
          obtain ⟨each, depth⟩ := ihItems _ _ _ later
          rw [List.forall_mem_cons]
          exact ⟨⟨plain, each⟩, depth.trans (between.trans (depth_skip p))⟩

theorem value_plain {fuel : Nat} {p after : Parser} {found : Value}
    (read : value fuel p = .ok (found, after)) : Plain found ∧ after.depth = p.depth :=
  (values_plain fuel).1 p found after read

/-- The body of a section is read with one more section open, of which there are 32 at most. -/
theorem depth_of_sectionBody {fuel : Nat} {top : Bool} {p after : Parser} {found : Section}
    (read : sectionBody (fuel + 1) top p = .ok (found, after)) :
    p.depth < 32 ∧ ∃ last, entries fuel top { p with depth := p.depth + 1 } = .ok (found, last) ∧
      after.depth = last.depth - 1 := by
  rw [sectionBody] at read
  obtain ⟨bounded, read⟩ := refuseIf_bind_eq_ok.mp read
  obtain ⟨⟨out, last⟩, inner, read⟩ := bind_eq_ok.mp read
  cases read
  exact ⟨Nat.not_lt.mp bounded, last, inner, rfl⟩

/-- A section is a tree as deep as the sections that are open leave room for. -/
theorem sections_tree (fuel : Nat) :
    (∀ top p found after, sectionBody fuel top p = .ok (found, after) →
      p.depth < 32 ∧ Tree (31 - p.depth) found ∧ after.depth = p.depth) ∧
    ∀ top p found after, entries fuel top p = .ok (found, after) → p.depth ≤ 32 →
      Tree (32 - p.depth) found ∧ after.depth = p.depth := by
  induction fuel with
  | zero =>
      constructor
      · intro top p found after read
        cases read
      · intro top p found after read
        cases read
  | succ fuel ih =>
      obtain ⟨ihBody, ihEntries⟩ := ih
      constructor
      · intro top p found after read
        obtain ⟨bounded, last, inner, same⟩ := depth_of_sectionBody read
        obtain ⟨tree, depth⟩ := ihEntries _ _ _ _ inner bounded
        refine ⟨bounded, ?_, ?_⟩
        · have less : 32 - (p.depth + 1) = 31 - p.depth := by omega
          exact less ▸ tree
        · rw [same, depth]
          exact Nat.add_sub_cancel p.depth 1
      · intro top p found after read bounded
        rcases entries_eq_ok read with ⟨rfl, front, rfl, _⟩ | ⟨rfl, front, rfl⟩ |
          ⟨key, named, c, rest, name, front, ⟨brace, body, next, more, own, later, rfl⟩ |
            ⟨equals, own, next, more, inner, later, rfl⟩⟩
        · rw [entries] at read
          dsimp only at read
          rw [front] at read
          cases read
          exact ⟨.empty, depth_skip p⟩
        · rw [entries] at read
          dsimp only at read
          rw [front] at read
          dsimp only at read
          rw [if_pos ⟨rfl, by simp⟩] at read
          obtain ⟨_, last⟩ := Prod.mk.inj (Except.ok.inj read)
          rw [← last]
          exact ⟨.empty, depth_skip p⟩
        · obtain ⟨keyed, between⟩ := ident_eq_ok name
          obtain ⟨room, tree, inside⟩ := ihBody _ _ _ _ own
          obtain ⟨others, depth⟩ := ihEntries _ _ _ _ later (by rw [inside]; exact room.le)
          simp only [depth_skip, inside, between] at room tree others depth
          obtain ⟨left, more_room⟩ := Nat.exists_eq_add_one.mpr (by omega : 0 < 32 - p.depth)
          have below : 31 - p.depth = left := by omega
          rw [below] at tree
          rw [more_room] at others ⊢
          exact ⟨.nested keyed tree others, depth⟩
        · obtain ⟨keyed, between⟩ := ident_eq_ok name
          obtain ⟨plain, inside⟩ := value_plain inner
          simp only [depth_skip, between] at inside
          obtain ⟨others, depth⟩ := ihEntries _ _ _ _ later (by rw [inside]; exact bounded)
          rw [inside] at others depth
          exact ⟨.value keyed plain others, depth⟩

end Parser

/-! ## The trees that are read -/

/-- What a text is parsed as has names before its values, integers of 64 bits, no section in a
list, and sections nested at most 31 deep below the top. -/
theorem tree_of_parseMetadata {text : String} {top : Section}
    (parsed : parseMetadata text = .ok top) : Tree 31 top := by
  unfold parseMetadata at parsed
  obtain ⟨⟨found, after⟩, read, parsed⟩ := bind_eq_ok.mp parsed
  cases parsed
  exact ((Parser.sections_tree _).1 _ _ _ _ read).2.1

theorem parseMetadata_of_tree {top : Section} (tree : Tree 31 top) :
    parseMetadata (printedEntries top) = .ok top := by
  obtain ⟨p, read⟩ := Parser.sectionBody_written (Parser.entries_printed tree false)
  unfold parseMetadata
  dsimp only
  rw [read, ok_bind]

/-- A section is what some text is parsed as exactly when its own print is parsed as it, and
when it is a tree of the kind above. -/
theorem parseMetadata_printedEntries (top : Section) :
    ((∃ text, parseMetadata text = .ok top) ↔ Tree 31 top) ∧
      (parseMetadata (printedEntries top) = .ok top ↔ Tree 31 top) := by
  constructor
  · constructor
    · rintro ⟨text, parsed⟩
      exact tree_of_parseMetadata parsed
    · intro tree
      exact ⟨printedEntries top, parseMetadata_of_tree tree⟩
  · constructor
    · intro parsed
      exact tree_of_parseMetadata parsed
    · intro tree
      exact parseMetadata_of_tree tree

end DiskPartitions
