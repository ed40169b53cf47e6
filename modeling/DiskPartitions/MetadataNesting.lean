import DiskPartitions.LvmLabels
import DiskPartitions.MetadataText
import DiskPartitions.TrappingWords
import Mathlib.Data.List.TakeWhile

/-!
# How deep metadata nests

A section counts how deep it is and refuses to go deeper than 32.  A list does not count, so
the parser goes as deep as the brackets of the text do.
-/

namespace DiskPartitions

open Refusals TrappingWords Utf8

/-! ## Depth -/

mutual

/-- How deep sections and lists nest in a value, itself included. -/
def Value.nesting : Value → Nat
  | .int _ => 0
  | .str _ => 0
  | .list found => itemsNesting found + 1
  | .nested body => entriesNesting body + 1

def itemsNesting : List Value → Nat
  | [] => 0
  | item :: rest => max item.nesting (itemsNesting rest)

def entriesNesting : List (String × Value) → Nat
  | [] => 0
  | entry :: rest => max (entryNesting entry) (entriesNesting rest)

def entryNesting : String × Value → Nat
  | (_, found) => found.nesting

end

/-- Where in a text a character stands. -/
inductive Place
  | plain
  | comment
  | quoted
  | escaped

/-- The most brackets and braces that are open at once, outside strings and comments, when
`opened` are open before the text. -/
def nestingFrom : Place → Nat → List UInt8 → Nat
  | _, opened, [] => opened
  | .plain, opened, c :: rest =>
      if c = '#'.toUInt8 then nestingFrom .comment opened rest
      else if c = '"'.toUInt8 then nestingFrom .quoted opened rest
      else if c = '['.toUInt8 ∨ c = '{'.toUInt8 then nestingFrom .plain (opened + 1) rest
      else if c = ']'.toUInt8 ∨ c = '}'.toUInt8 then
        max opened (nestingFrom .plain (opened - 1) rest)
      else nestingFrom .plain opened rest
  | .comment, opened, c :: rest =>
      if c = '\n'.toUInt8 then nestingFrom .plain opened rest
      else nestingFrom .comment opened rest
  | .quoted, opened, c :: rest =>
      if c = '"'.toUInt8 then nestingFrom .plain opened rest
      else if c = '\\'.toUInt8 then nestingFrom .escaped opened rest
      else nestingFrom .quoted opened rest
  | .escaped, opened, _ :: rest => nestingFrom .quoted opened rest

/-- How deep the brackets and braces of a text nest. -/
def nesting (text : String) : Nat := nestingFrom .plain 0 (asBytes text)

/-! ## The parser with a limit -/

namespace Parser

mutual

/-- A value, with `room` for so many lists that are open at once; one more stops the parser. -/
def valueWithin : Nat → Nat → Parser → Trapping LvmError (Value × Parser)
  | 0, _, p => exact (.error (p.err "expected a value"))
  | fuel + 1, room, p =>
      let p := p.skip
      match p.rest with
      | [] => exact (.error (p.err "expected a value"))
      | c :: rest =>
          if c = '"'.toUInt8 then do
            let (text, p) ← exact (string { p with rest })
            exact (.ok (.str text, p))
          else if c = '['.toUInt8 then
            match room with
            | 0 => trap
            | room + 1 => do
                let (found, p) ← itemsWithin fuel room { p with rest }
                exact (.ok (.list found, p))
          else if c = '-'.toUInt8 ∨ isDigit c then exact (integer p)
          else exact (.error (p.err "expected a value"))

def itemsWithin : Nat → Nat → Parser → Trapping LvmError (List Value × Parser)
  | 0, _, p => exact (.error (p.err "unterminated list"))
  | fuel + 1, room, p =>
      let p := p.skip
      match p.rest with
      | [] => exact (.error (p.err "unterminated list"))
      | c :: rest =>
          if c = ']'.toUInt8 then exact (.ok ([], { p with rest }))
          else if c = ','.toUInt8 then itemsWithin fuel room { p with rest }
          else do
            let (item, p) ← valueWithin fuel room p
            let (more, p) ← itemsWithin fuel room p
            exact (.ok (item :: more, p))

end

mutual

/-- The body of a section, with `room` for so many sections and lists below it. -/
def sectionBodyWithin : Nat → Nat → Bool → Parser → Trapping LvmError (Section × Parser)
  | 0, _, _, p => exact (.error (p.err "unterminated section"))
  | fuel + 1, room, top, p => do
      let p := { p with depth := p.depth + 1 }
      exact (refuseIf (32 < p.depth) (p.err "sections nested too deep"))
      let (out, p) ← entriesWithin fuel room top p
      exact (.ok (out, { p with depth := p.depth - 1 }))

def entriesWithin : Nat → Nat → Bool → Parser → Trapping LvmError (Section × Parser)
  | 0, _, _, p => exact (.error (p.err "unterminated section"))
  | fuel + 1, room, top, p =>
      let p := p.skip
      match p.rest with
      | [] => if top then exact (.ok ([], p)) else exact (.error (p.err "unterminated section"))
      | c :: rest =>
          if c = '}'.toUInt8 ∧ ¬ top then exact (.ok ([], { p with rest }))
          else do
            let (key, p) ← exact p.ident
            let p := p.skip
            match p.rest with
            | [] => exact (.error (p.err s!"expected '=' or '\x7b' after {key}"))
            | c :: rest =>
                if c = '{'.toUInt8 then
                  match room with
                  | 0 => trap
                  | below + 1 => do
                      let (body, p) ← sectionBodyWithin fuel below false { p with rest }
                      let (more, p) ← entriesWithin fuel (below + 1) top p
                      exact (.ok ((key, .nested body) :: more, p))
                else if c = '='.toUInt8 then do
                  let (found, p) ← valueWithin (2 * rest.length + 2) room { p with rest }
                  let (more, p) ← entriesWithin fuel room top p
                  exact (.ok ((key, found) :: more, p))
                else exact (.error (p.err s!"expected '=' or '\x7b' after {key}"))

end

end Parser

/-- The text parsed with a limit to how many sections and lists are open at once. -/
def parseWithin (bound : Nat) (text : String) : Trapping LvmError Section := do
  let bytes := asBytes text
  let (top, _) ← Parser.sectionBodyWithin (2 * bytes.length + 2) bound true
    { rest := bytes, line := 1, depth := 0 }
  exact (.ok top)

/-- A text is parsed without going deeper than the bound, and what it is parsed as nests no
deeper either. -/
def NestsWithin (bound : Nat) (text : String) : Prop :=
  parseWithin bound text = exact (parseMetadata text) ∧
    ∀ top, parseMetadata text = .ok top → entriesNesting top ≤ bound

/-! ## What moving over a token does -/

theorem le_nestingFrom (place : Place) (opened : Nat) (text : List UInt8) :
    opened ≤ nestingFrom place opened text := by
  induction text generalizing place opened with
  | nil => cases place <;> exact Nat.le_refl opened
  | cons c rest ih =>
      cases place with
      | plain =>
          rw [nestingFrom]
          have deeper := ih .plain (opened + 1)
          split
          next => exact ih _ _
          next =>
            split
            next => exact ih _ _
            next =>
              split
              next => omega
              next =>
                split
                next => exact Nat.le_max_left _ _
                next => exact ih _ _
      | comment =>
          rw [nestingFrom]
          split
          next => exact ih _ _
          next => exact ih _ _
      | quoted =>
          rw [nestingFrom]
          split
          next => exact ih _ _
          next =>
            split
            next => exact ih _ _
            next => exact ih _ _
      | escaped => exact ih _ _

namespace Parser

/-- The characters that open or close something. -/
def isMark (c : UInt8) : Bool :=
  ['#', '"', '[', '{', ']', '}'].any fun other => c = other.toUInt8

theorem nestingFrom_other {c : UInt8} (other : isMark c = false) (opened : Nat)
    (rest : List UInt8) :
    nestingFrom .plain opened (c :: rest) = nestingFrom .plain opened rest := by
  simp only [isMark, List.any_cons, List.any_nil, Bool.or_false, Bool.or_eq_false_iff,
    decide_eq_false_iff_not] at other
  obtain ⟨hash, quote, bracket, brace, closing, ending⟩ := other
  rw [nestingFrom, if_neg hash, if_neg quote, if_neg (not_or.mpr ⟨bracket, brace⟩),
    if_neg (not_or.mpr ⟨closing, ending⟩)]

/-- What is blank before a token opens nothing. -/
theorem nestingFrom_skipFrom (comment : Bool) (opened : Nat) (text : List UInt8) (line : Nat) :
    nestingFrom (if comment then .comment else .plain) opened text =
      nestingFrom .plain opened (skipFrom comment text line).1 := by
  induction text generalizing comment line with
  | nil => cases comment <;> rfl
  | cons c rest ih =>
      rw [skipFrom]
      by_cases newline : c = '\n'.toUInt8
      · rw [if_pos newline, ← ih false (line + 1)]
        cases comment with
        | true => exact if_pos newline
        | false => exact nestingFrom_other (by rw [newline]; decide) _ _
      · rw [if_neg newline]
        cases comment with
        | true =>
            change nestingFrom .comment opened (c :: rest) =
              nestingFrom .plain opened (skipFrom true rest line).1
            rw [nestingFrom, if_neg newline]
            exact ih true line
        | false =>
            rw [if_neg (by simp : ¬ false = true), if_neg (by simp : ¬ false = true)]
            split
            next blank =>
              rw [← ih false line]
              refine nestingFrom_other ?_ _ _
              rcases blank with rfl | rfl | rfl
              all_goals decide
            next =>
              split
              next hash =>
                rw [← ih true line, nestingFrom, if_pos hash]
                rfl
              next => rfl

theorem nestingFrom_skip (p : Parser) (opened : Nat) :
    nestingFrom .plain opened p.skip.rest = nestingFrom .plain opened p.rest :=
  (nestingFrom_skipFrom false opened p.rest p.line).symm

theorem isMark_of_isName {c : UInt8} (named : isName c = true) : isMark c = false := by
  by_contra mark
  simp only [isMark, List.any_cons, List.any_nil, Bool.or_false, Bool.not_eq_false,
    Bool.or_eq_true, decide_eq_true_eq] at mark
  revert named
  rcases mark with rfl | rfl | rfl | rfl | rfl | rfl
  all_goals decide

/-- A run of characters that open nothing. -/
theorem nestingFrom_append {run : List UInt8} (other : ∀ c ∈ run, isMark c = false) (opened : Nat)
    (rest : List UInt8) :
    nestingFrom .plain opened (run ++ rest) = nestingFrom .plain opened rest := by
  induction run with
  | nil => rfl
  | cons c run ih =>
      rw [List.cons_append, nestingFrom_other (other c List.mem_cons_self)]
      exact ih fun d later => other d (List.mem_cons_of_mem c later)

theorem nestingFrom_ident {p after : Parser} {key : String} (read : p.ident = .ok (key, after))
    (opened : Nat) :
    nestingFrom .plain opened after.rest = nestingFrom .plain opened p.rest := by
  unfold ident at read
  obtain ⟨_, read⟩ := refuseIf_bind_eq_ok.mp read
  cases read
  have split := List.takeWhile_append_dropWhile (p := isName) (l := p.skip.rest)
  rw [← nestingFrom_skip p, ← split, nestingFrom_append]
  · rw [split]
  · exact fun c member => isMark_of_isName (List.mem_takeWhile_imp member)

/-- A string opens nothing. -/
theorem nestingFrom_stringBytes {text : List UInt8} {line : Nat} {out rest : List UInt8}
    {next : Nat} (read : stringBytes text line = .ok (out, rest, next)) (opened : Nat) :
    nestingFrom .quoted opened text = nestingFrom .plain opened rest := by
  fun_induction stringBytes text line generalizing out rest next with
  | case1 => cases read
  | case2 others line =>
      cases read
      rw [nestingFrom, if_pos rfl]
  | case3 => cases read
  | case4 line c others other ih =>
      obtain ⟨⟨more, after, there⟩, inner, read⟩ := bind_eq_ok.mp read
      cases read
      rw [nestingFrom, if_neg other, if_pos rfl, nestingFrom]
      exact ih inner
  | case5 c others line quote escape ih =>
      obtain ⟨⟨more, after, there⟩, inner, read⟩ := bind_eq_ok.mp read
      cases read
      rw [nestingFrom, if_neg quote, if_neg escape]
      exact ih inner

theorem nestingFrom_string {p after : Parser} {text : String} (read : p.string = .ok (text, after))
    (opened : Nat) :
    nestingFrom .quoted opened p.rest = nestingFrom .plain opened after.rest := by
  unfold string at read
  obtain ⟨⟨out, rest, line⟩, inner, read⟩ := bind_eq_ok.mp read
  cases read
  exact nestingFrom_stringBytes inner opened

/-- An integer opens nothing. -/
theorem nestingFrom_integer {p after : Parser} {found : Value}
    (read : p.integer = .ok (found, after)) (opened : Nat) :
    found.nesting = 0 ∧
      nestingFrom .plain opened p.rest = nestingFrom .plain opened after.rest := by
  unfold integer at read
  obtain ⟨number, _, read⟩ := bind_eq_ok.mp read
  cases read
  refine ⟨rfl, ?_⟩
  dsimp only
  generalize signed : (if p.rest.head? = some '-'.toUInt8 then 1 else 0) = sign
  have digits : ∀ c ∈ (p.rest.drop sign).takeWhile isDigit, isName c = true := by
    intro c member
    unfold isName
    rw [List.mem_takeWhile_imp member]
    rfl
  have whole : p.rest.take (sign + ((p.rest.drop sign).takeWhile isDigit).length) =
      p.rest.take sign ++ (p.rest.drop sign).takeWhile isDigit := by
    rw [List.take_add]
    congr 1
    exact (List.prefix_iff_eq_take.mp (List.takeWhile_prefix isDigit)).symm
  have named : ∀ c ∈ p.rest.take (sign + ((p.rest.drop sign).takeWhile isDigit).length),
      isName c = true := by
    intro c member
    rw [whole] at member
    rcases List.mem_append.mp member with first | later
    · split at signed
      next minus =>
        subst signed
        cases rest : p.rest with
        | nil =>
            rw [rest] at first
            cases first
        | cons d more =>
            rw [rest] at first minus
            cases minus
            rw [List.mem_singleton.mp first]
            decide
      next =>
        subst signed
        cases first
    · exact digits c later
  have same : ∀ count, p.rest.take (p.rest.take count).length = p.rest.take count := by
    intro count
    rw [List.length_take, ← List.take_eq_take_min]
  conv_lhs => rw [← List.take_append_drop
    (p.rest.take (sign + ((p.rest.drop sign).takeWhile isDigit).length)).length p.rest, same]
  exact nestingFrom_append (fun c member => isMark_of_isName (named c member)) opened _

/-! ## What a step of the parser does -/

/-- A value is a string, a list or an integer. -/
theorem value_eq_ok {fuel : Nat} {p after : Parser} {found : Value}
    (read : value (fuel + 1) p = .ok (found, after)) :
    ∃ c rest, p.skip.rest = c :: rest ∧
      (c = '"'.toUInt8 ∧ (∃ text, string { p.skip with rest } = .ok (text, after) ∧
          found = .str text) ∨
        c = '['.toUInt8 ∧ (∃ inner, items fuel { p.skip with rest } = .ok (inner, after) ∧
          found = .list inner) ∨
        integer p.skip = .ok (found, after)) := by
  rw [value] at read
  dsimp only at read
  cases front : p.skip.rest with
  | nil =>
      rw [front] at read
      cases read
  | cons c rest =>
      rw [front] at read
      refine ⟨c, rest, rfl, ?_⟩
      dsimp only at read
      split at read
      next quote =>
        obtain ⟨⟨text, p⟩, inner, read⟩ := bind_eq_ok.mp read
        cases read
        exact .inl ⟨quote, text, inner, rfl⟩
      next =>
        split at read
        next bracket =>
          obtain ⟨⟨found, p⟩, inner, read⟩ := bind_eq_ok.mp read
          cases read
          exact .inr (.inl ⟨bracket, found, inner, rfl⟩)
        next =>
          split at read
          next => exact .inr (.inr read)
          next => cases read

/-- The items of a list end at its bracket, or go on behind a comma or an item. -/
theorem items_eq_ok {fuel : Nat} {p after : Parser} {found : List Value}
    (read : items (fuel + 1) p = .ok (found, after)) :
    ∃ c rest, p.skip.rest = c :: rest ∧
      (c = ']'.toUInt8 ∧ found = [] ∧ after.rest = rest ∨
        c = ','.toUInt8 ∧ items fuel { p.skip with rest } = .ok (found, after) ∨
        ∃ item next more, value fuel p.skip = .ok (item, next) ∧
          items fuel next = .ok (more, after) ∧ found = item :: more) := by
  rw [items] at read
  dsimp only at read
  cases front : p.skip.rest with
  | nil =>
      rw [front] at read
      cases read
  | cons c rest =>
      rw [front] at read
      refine ⟨c, rest, rfl, ?_⟩
      dsimp only at read
      split at read
      next bracket =>
        cases read
        exact .inl ⟨bracket, rfl, rfl⟩
      next =>
        split at read
        next comma => exact .inr (.inl ⟨comma, read⟩)
        next =>
          obtain ⟨⟨item, next⟩, own, read⟩ := bind_eq_ok.mp read
          obtain ⟨⟨more, p⟩, later, read⟩ := bind_eq_ok.mp read
          cases read
          exact .inr (.inr ⟨item, next, more, own, later, rfl⟩)

/-- An entry's value is a section or what follows an equals sign. -/
theorem entries_eq_ok {fuel : Nat} {top : Bool} {p after : Parser} {found : Section}
    (read : entries (fuel + 1) top p = .ok (found, after)) :
    top = true ∧ p.skip.rest = [] ∧ found = [] ∧ after.rest = [] ∨
    top = false ∧ p.skip.rest = '}'.toUInt8 :: after.rest ∧ found = [] ∨
    ∃ key named c rest, p.skip.ident = .ok (key, named) ∧ named.skip.rest = c :: rest ∧
      (c = '{'.toUInt8 ∧ (∃ body next more,
          sectionBody fuel false { named.skip with rest } = .ok (body, next) ∧
          entries fuel top next = .ok (more, after) ∧ found = (key, .nested body) :: more) ∨
        c = '='.toUInt8 ∧ ∃ own next more,
          value (2 * rest.length + 2) { named.skip with rest } = .ok (own, next) ∧
          entries fuel top next = .ok (more, after) ∧ found = (key, own) :: more) := by
  rw [entries] at read
  dsimp only at read
  cases front : p.skip.rest with
  | nil =>
      rw [front] at read
      dsimp only at read
      split at read
      next whole =>
        cases read
        exact .inl ⟨whole, rfl, rfl, front⟩
      next => cases read
  | cons d others =>
      rw [front] at read
      right
      dsimp only at read
      split at read
      next closing =>
        cases read
        exact .inl ⟨by simpa using closing.2, by rw [closing.1], rfl⟩
      next =>
        right
        obtain ⟨⟨key, named⟩, name, read⟩ := bind_eq_ok.mp read
        dsimp only at read
        cases behind : named.skip.rest with
        | nil =>
            rw [behind] at read
            cases read
        | cons c rest =>
            rw [behind] at read
            refine ⟨key, named, c, rest, name, behind, ?_⟩
            dsimp only at read
            split at read
            next brace =>
              obtain ⟨⟨body, next⟩, inner, read⟩ := bind_eq_ok.mp read
              obtain ⟨⟨more, p⟩, later, read⟩ := bind_eq_ok.mp read
              cases read
              exact .inl ⟨brace, body, next, more, inner, later, rfl⟩
            next =>
              split at read
              next equals =>
                obtain ⟨⟨own, next⟩, inner, read⟩ := bind_eq_ok.mp read
                obtain ⟨⟨more, p⟩, later, read⟩ := bind_eq_ok.mp read
                cases read
                exact .inr ⟨equals, own, next, more, inner, later, rfl⟩
              next => cases read

theorem sectionBody_eq_ok {fuel : Nat} {top : Bool} {p after : Parser} {found : Section}
    (read : sectionBody (fuel + 1) top p = .ok (found, after)) :
    ∃ last, entries fuel top { p with depth := p.depth + 1 } = .ok (found, last) ∧
      after.rest = last.rest := by
  rw [sectionBody] at read
  obtain ⟨_, read⟩ := refuseIf_bind_eq_ok.mp read
  obtain ⟨⟨out, last⟩, inner, read⟩ := bind_eq_ok.mp read
  cases read
  exact ⟨last, inner, rfl⟩

/-! ## The depth of what is parsed -/

theorem nestingFrom_open {c : UInt8} (opens : c = '['.toUInt8 ∨ c = '{'.toUInt8) (opened : Nat)
    (rest : List UInt8) :
    nestingFrom .plain opened (c :: rest) = nestingFrom .plain (opened + 1) rest := by
  have other : c ≠ '#'.toUInt8 ∧ c ≠ '"'.toUInt8 := by
    rcases opens with rfl | rfl
    all_goals decide
  rw [nestingFrom, if_neg other.1, if_neg other.2, if_pos opens]

theorem nestingFrom_close {c : UInt8} (closes : c = ']'.toUInt8 ∨ c = '}'.toUInt8) (opened : Nat)
    (rest : List UInt8) :
    nestingFrom .plain (opened + 1) (c :: rest) =
      max (opened + 1) (nestingFrom .plain opened rest) := by
  have other : c ≠ '#'.toUInt8 ∧ c ≠ '"'.toUInt8 ∧ ¬ (c = '['.toUInt8 ∨ c = '{'.toUInt8) := by
    rcases closes with rfl | rfl
    all_goals decide
  rw [nestingFrom, if_neg other.1, if_neg other.2.1, if_neg other.2.2, if_pos closes,
    Nat.add_sub_cancel]

theorem nestingFrom_quote {c : UInt8} (quote : c = '"'.toUInt8) (opened : Nat)
    (rest : List UInt8) :
    nestingFrom .plain opened (c :: rest) = nestingFrom .quoted opened rest := by
  subst quote
  rw [nestingFrom, if_neg (by decide), if_pos rfl]

/-- What is parsed nests as deep as the text it is parsed from. -/
theorem nestingFrom_values (fuel : Nat) :
    (∀ p found after opened, value fuel p = .ok (found, after) →
      nestingFrom .plain opened p.rest =
        max (opened + found.nesting) (nestingFrom .plain opened after.rest)) ∧
    ∀ p found after opened, items fuel p = .ok (found, after) →
      nestingFrom .plain (opened + 1) p.rest =
        max (opened + 1 + itemsNesting found) (nestingFrom .plain opened after.rest) := by
  induction fuel with
  | zero =>
      constructor
      · intro p found after opened read
        cases read
      · intro p found after opened read
        cases read
  | succ fuel ih =>
      obtain ⟨ihValue, ihItems⟩ := ih
      constructor
      · intro p found after opened read
        have above := le_nestingFrom .plain opened after.rest
        obtain ⟨c, rest, front, ⟨quote, text, inner, rfl⟩ | ⟨bracket, inner, listed, rfl⟩ | read⟩ :=
          value_eq_ok read
        · rw [← nestingFrom_skip, front, nestingFrom_quote quote, nestingFrom_string inner,
            Value.nesting]
          omega
        · rw [← nestingFrom_skip, front, nestingFrom_open (.inl bracket), ihItems _ _ _ _ listed,
            Value.nesting]
          omega
        · obtain ⟨flat, same⟩ := nestingFrom_integer read opened
          rw [← nestingFrom_skip, same, flat]
          omega
      · intro p found after opened read
        obtain ⟨c, rest, front, ⟨bracket, rfl, last⟩ | ⟨comma, read⟩ |
          ⟨item, next, more, own, later, rfl⟩⟩ := items_eq_ok read
        · rw [← nestingFrom_skip, front, nestingFrom_close (.inl bracket), last, itemsNesting,
            Nat.add_zero]
        · rw [← nestingFrom_skip, front, nestingFrom_other (by rw [comma]; decide)]
          exact ihItems _ _ _ _ read
        · rw [← nestingFrom_skip, ihValue _ _ _ _ own, ihItems _ _ _ _ later, itemsNesting]
          omega

theorem nestingFrom_value {fuel : Nat} {p after : Parser} {found : Value}
    (read : value fuel p = .ok (found, after)) (opened : Nat) :
    nestingFrom .plain opened p.rest =
      max (opened + found.nesting) (nestingFrom .plain opened after.rest) :=
  (nestingFrom_values fuel).1 p found after opened read

/-- A section below the top is closed by a brace. -/
theorem nestingFrom_sections (fuel : Nat) :
    (∀ top p found after opened, sectionBody fuel top p = .ok (found, after) →
      nestingFrom .plain (if top then opened else opened + 1) p.rest =
        max ((if top then opened else opened + 1) + entriesNesting found)
          (nestingFrom .plain opened after.rest)) ∧
    ∀ top p found after opened, entries fuel top p = .ok (found, after) →
      nestingFrom .plain (if top then opened else opened + 1) p.rest =
        max ((if top then opened else opened + 1) + entriesNesting found)
          (nestingFrom .plain opened after.rest) := by
  induction fuel with
  | zero =>
      constructor
      · intro top p found after opened read
        cases read
      · intro top p found after opened read
        cases read
  | succ fuel ih =>
      obtain ⟨ihBody, ihEntries⟩ := ih
      constructor
      · intro top p found after opened read
        obtain ⟨last, read, same⟩ := sectionBody_eq_ok read
        rw [same]
        exact ihEntries top { p with depth := p.depth + 1 } found last opened read
      · intro top p found after opened read
        rcases entries_eq_ok read with ⟨rfl, front, rfl, last⟩ | ⟨rfl, front, rfl⟩ |
          ⟨key, named, c, rest, name, front, ⟨brace, body, next, more, own, later, rfl⟩ |
            ⟨equals, own, next, more, inner, later, rfl⟩⟩
        · rw [← nestingFrom_skip, front, last, entriesNesting]
          simp [nestingFrom]
        · rw [← nestingFrom_skip, front, if_neg (by simp), nestingFrom_close (.inr rfl),
            entriesNesting, Nat.add_zero]
        · have body := ihBody _ _ _ _ (if top then opened else opened + 1) own
          rw [if_neg (by simp)] at body
          rw [← nestingFrom_skip, ← nestingFrom_ident name, ← nestingFrom_skip, front,
            nestingFrom_open (.inr brace), body, ihEntries _ _ _ _ _ later, entriesNesting,
            entryNesting, Value.nesting]
          omega
        · rw [← nestingFrom_skip, ← nestingFrom_ident name, ← nestingFrom_skip, front,
            nestingFrom_other (by rw [equals]; decide), nestingFrom_value inner,
            ihEntries _ _ _ _ _ later, entriesNesting, entryNesting]
          omega

/-! ## Texts that nest within a limit -/

/-- A value has room for as many lists as the text has brackets open at once. -/
theorem valuesWithin_eq (fuel : Nat) :
    (∀ room p opened, nestingFrom .plain opened p.rest ≤ opened + room →
      valueWithin fuel room p = exact (value fuel p)) ∧
    ∀ room p opened, nestingFrom .plain (opened + 1) p.rest ≤ opened + 1 + room →
      itemsWithin fuel room p = exact (items fuel p) := by
  induction fuel with
  | zero => exact ⟨fun _ _ _ _ => rfl, fun _ _ _ _ => rfl⟩
  | succ fuel ih =>
      obtain ⟨ihValue, ihItems⟩ := ih
      constructor
      · intro room p opened inside
        rw [← nestingFrom_skip] at inside
        rw [valueWithin, value]
        dsimp only
        cases front : p.skip.rest with
        | nil => rfl
        | cons c rest =>
            rw [front] at inside
            dsimp only
            by_cases quote : c = '"'.toUInt8
            · rw [if_pos quote, if_pos quote]
              exact exact_bind rfl fun _ _ => rfl
            · rw [if_neg quote, if_neg quote]
              by_cases bracket : c = '['.toUInt8
              · rw [if_pos bracket, if_pos bracket]
                rw [nestingFrom_open (.inl bracket)] at inside
                have above := le_nestingFrom .plain (opened + 1) rest
                cases room with
                | zero => omega
                | succ room =>
                    have below := ihItems room { p.skip with rest } opened (by
                      rw [Nat.add_assoc, Nat.add_comm 1]
                      exact inside)
                    exact exact_bind below fun _ _ => rfl
              · rw [if_neg bracket, if_neg bracket]
                split
                next => rfl
                next => rfl
      · intro room p opened inside
        have whole := inside
        rw [← nestingFrom_skip] at inside
        rw [itemsWithin, items]
        dsimp only
        cases front : p.skip.rest with
        | nil => rfl
        | cons c rest =>
            rw [front] at inside
            dsimp only
            by_cases bracket : c = ']'.toUInt8
            · rw [if_pos bracket, if_pos bracket]
            · rw [if_neg bracket, if_neg bracket]
              by_cases comma : c = ','.toUInt8
              · rw [if_pos comma, if_pos comma]
                rw [nestingFrom_other (by rw [comma]; decide)] at inside
                exact ihItems room { p.skip with rest } opened inside
              · rw [if_neg comma, if_neg comma]
                rw [← nestingFrom_skip] at whole
                refine exact_bind (ihValue room p.skip (opened + 1) whole) ?_
                rintro ⟨item, next⟩ own
                have behind := nestingFrom_value own (opened + 1)
                have later := ihItems room next opened (by omega)
                exact exact_bind later fun _ _ => rfl

theorem valueWithin_eq {fuel room opened : Nat} {p : Parser}
    (inside : nestingFrom .plain opened p.rest ≤ opened + room) :
    valueWithin fuel room p = exact (value fuel p) :=
  (valuesWithin_eq fuel).1 room p opened inside

/-- A section has room for as many sections and lists as the text has open at once. -/
theorem sectionsWithin_eq (fuel : Nat) :
    (∀ room top p opened,
      nestingFrom .plain (if top then opened else opened + 1) p.rest ≤
        (if top then opened else opened + 1) + room →
      sectionBodyWithin fuel room top p = exact (sectionBody fuel top p)) ∧
    ∀ room top p opened,
      nestingFrom .plain (if top then opened else opened + 1) p.rest ≤
        (if top then opened else opened + 1) + room →
      entriesWithin fuel room top p = exact (entries fuel top p) := by
  induction fuel with
  | zero => exact ⟨fun _ _ _ _ _ => rfl, fun _ _ _ _ _ => rfl⟩
  | succ fuel ih =>
      obtain ⟨ihBody, ihEntries⟩ := ih
      constructor
      · intro room top p opened inside
        rw [sectionBodyWithin, sectionBody]
        refine exact_bind rfl fun _ _ => ?_
        have below := ihEntries room top { p with depth := p.depth + 1 } opened inside
        exact exact_bind below fun _ _ => rfl
      · intro room top p opened inside
        generalize levels : (if top then opened else opened + 1) = level at inside
        rw [← nestingFrom_skip] at inside
        rw [entriesWithin, entries]
        dsimp only
        cases start : p.skip.rest with
        | nil =>
            dsimp only
            split
            next => rfl
            next => rfl
        | cons d others =>
            dsimp only
            by_cases closing : d = '}'.toUInt8 ∧ ¬ top
            · rw [if_pos closing, if_pos closing]
            · rw [if_neg closing, if_neg closing]
              refine exact_bind rfl ?_
              rintro ⟨key, named⟩ name
              dsimp only
              rw [← nestingFrom_ident name, ← nestingFrom_skip] at inside
              have behind (next : Parser) (lower : nestingFrom .plain level next.rest ≤ level + room) :
                  entriesWithin fuel room top next = exact (entries fuel top next) :=
                ihEntries room top next opened (by rw [levels]; exact lower)
              cases front : named.skip.rest with
              | nil => rfl
              | cons c rest =>
                  rw [front] at inside
                  dsimp only
                  by_cases brace : c = '{'.toUInt8
                  · rw [if_pos brace, if_pos brace]
                    rw [nestingFrom_open (.inr brace)] at inside
                    have above := le_nestingFrom .plain (level + 1) rest
                    cases room with
                    | zero => omega
                    | succ below =>
                        have inner := ihBody below false { named.skip with rest } level (by
                          rw [if_neg (by simp)]
                          dsimp only
                          omega)
                        refine exact_bind inner ?_
                        rintro ⟨body, next⟩ own
                        have after := (nestingFrom_sections fuel).1 _ _ _ _ level own
                        rw [if_neg (by simp)] at after
                        exact exact_bind (behind next (by dsimp only at after; omega)) fun _ _ => rfl
                  · rw [if_neg brace, if_neg brace]
                    by_cases equals : c = '='.toUInt8
                    · rw [if_pos equals, if_pos equals]
                      rw [nestingFrom_other (by rw [equals]; decide)] at inside
                      refine exact_bind (@valueWithin_eq _ _ _ { named.skip with rest } inside) ?_
                      rintro ⟨found, next⟩ own
                      have after := nestingFrom_value own level
                      exact exact_bind (behind next (by dsimp only at after; omega)) fun _ _ => rfl
                    · rw [if_neg equals, if_neg equals]

/-- The whole text is parsed to its end. -/
theorem rest_of_entries {fuel : Nat} {p after : Parser} {found : Section}
    (read : entries fuel true p = .ok (found, after)) : after.rest = [] := by
  induction fuel generalizing p found with
  | zero => cases read
  | succ fuel ih =>
      rcases entries_eq_ok read with ⟨_, _, _, last⟩ | ⟨inner, _, _⟩ |
        ⟨_, _, _, _, _, _, ⟨_, _, _, _, _, later, _⟩ | ⟨_, _, _, _, _, later, _⟩⟩
      · exact last
      · cases inner
      · exact ih later
      · exact ih later

end Parser

theorem parseWithin_eq {bound : Nat} {text : String} (inside : nesting text ≤ bound) :
    parseWithin bound text = exact (parseMetadata text) := by
  unfold parseWithin parseMetadata
  have within := (Parser.sectionsWithin_eq (2 * (asBytes text).length + 2)).1 bound true
    { rest := asBytes text, line := 1, depth := 0 } 0 (by
      rw [if_pos rfl, Nat.zero_add]
      exact inside)
  exact exact_bind within fun _ _ => rfl

/-- What is parsed nests as deep as its text. -/
theorem entriesNesting_parseMetadata {text : String} {top : Section}
    (parsed : parseMetadata text = .ok top) : entriesNesting top = nesting text := by
  unfold parseMetadata at parsed
  obtain ⟨⟨found, after⟩, read, parsed⟩ := bind_eq_ok.mp parsed
  cases parsed
  have deep := (Parser.nestingFrom_sections _).1 _ _ _ _ 0 read
  obtain ⟨last, inner, same⟩ := Parser.sectionBody_eq_ok read
  rw [same, Parser.rest_of_entries inner, if_pos rfl, Nat.zero_add, nestingFrom,
    Nat.max_zero] at deep
  exact deep.symm

/-- A list in a list, `levels` deep. -/
def deepItems : Nat → List Value
  | 0 => []
  | levels + 1 => [.list (deepItems levels)]

/-- The items, behind the opening bracket of the outermost list. -/
def deepTail : Nat → List UInt8
  | 0 => [']'.toUInt8]
  | levels + 1 => '['.toUInt8 :: (deepTail levels ++ [']'.toUInt8])

def deepBytes (levels : Nat) : List UInt8 :=
  'a'.toUInt8 :: '='.toUInt8 :: '['.toUInt8 :: deepTail levels

/-- A single key, whose value is the lists inside each other. -/
def deepText (levels : Nat) : String := fromUtf8Lossy (deepBytes levels)

example : deepText 1 = "a=[[]]" := by decide +kernel

theorem itemsNesting_deepItems (levels : Nat) : itemsNesting (deepItems levels) = levels := by
  induction levels with
  | zero => rfl
  | succ levels ih =>
      rw [deepItems, itemsNesting, Value.nesting, ih, itemsNesting, Nat.max_zero]

theorem length_deepTail (levels : Nat) : (deepTail levels).length = 2 * levels + 1 := by
  induction levels with
  | zero => rfl
  | succ levels ih =>
      rw [deepTail, List.length_cons, List.length_append, ih, List.length_singleton]
      omega

theorem ascii_deepTail (levels : Nat) : ∀ byte ∈ deepTail levels, byte.toNat < 0x80 := by
  induction levels with
  | zero => decide +kernel
  | succ levels ih =>
      intro byte member
      rcases List.mem_cons.mp member with rfl | member
      · decide
      · rcases List.mem_append.mp member with inner | last
        · exact ih byte inner
        · rw [List.mem_singleton.mp last]
          decide

theorem asBytes_deepText (levels : Nat) : asBytes (deepText levels) = deepBytes levels := by
  refine asBytes_fromUtf8Lossy ?_
  intro byte member
  simp only [deepBytes, List.mem_cons] at member
  rcases member with rfl | rfl | rfl | member
  · decide
  · decide
  · decide
  · exact ascii_deepTail levels byte member

theorem items_deepTail (levels : Nat) : Parser.Items true (deepItems levels) (deepTail levels) := by
  induction levels with
  | zero => exact .close .empty
  | succ levels ih => exact .list (.first .empty) ih (.close .empty)

/-- However deep they are, the lists are parsed. -/
theorem parseMetadata_deepText (levels : Nat) :
    parseMetadata (deepText levels) = .ok [("a", .list (deepItems levels))] := by
  have name : Parser.Name "a" := ⟨by decide +kernel, by decide +kernel⟩
  have written := @Parser.Entries.value 31 false [] [] [] _ _ "a" _ _ .empty (by simp) name .empty
    .empty (.list (items_deepTail levels)) (.finish .empty)
  have same : [] ++ (asBytes "a" ++ ([] ++ '='.toUInt8 :: ([] ++
      ('['.toUInt8 :: deepTail levels ++ [])))) = asBytes (deepText levels) := by
    rw [asBytes_deepText, List.append_nil, show asBytes "a" = ['a'.toUInt8] by decide +kernel]
    rfl
  obtain ⟨p, read⟩ := Parser.sectionBody_written (written.congr same)
  unfold parseMetadata
  dsimp only
  rw [read, ok_bind]

theorem entriesNesting_deepItems (levels : Nat) :
    entriesNesting [("a", .list (deepItems levels))] = levels + 1 := by
  rw [entriesNesting, entryNesting, Value.nesting, itemsNesting_deepItems, entriesNesting,
    Nat.max_zero]

end DiskPartitions
