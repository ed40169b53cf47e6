import DiskPartitions.LvmMetadata

/-!
# Metadata text as it is written

A tree of values is written with blanks and comments between its tokens, its strings quoted
and its list items separated by commas.  Every way to write a tree is parsed as that tree: the
cursor moves over each token and what is blank before it, whatever line it is on.
-/

namespace DiskPartitions

open Refusals Utf8

namespace Parser

/-! ## Writing -/

def isBlank (c : UInt8) : Bool :=
  [' ', '\t', '\r', '\n'].any fun other => c = other.toUInt8

/-- Blanks, and comments that a newline ends. -/
inductive Blank : List UInt8 → Prop
  | empty : Blank []
  | blank {c : UInt8} {more : List UInt8} (space : isBlank c = true) (rest : Blank more) :
      Blank (c :: more)
  | comment {text more : List UInt8} (line : ∀ c ∈ text, c ≠ '\n'.toUInt8) (rest : Blank more) :
      Blank ('#'.toUInt8 :: (text ++ '\n'.toUInt8 :: more))

/-- A name is letters, digits and `_.-+`, and not empty. -/
structure Name (key : String) : Prop where
  ne : asBytes key ≠ []
  named : ∀ c ∈ asBytes key, isName c = true

/-- A quote and a backslash are written behind a backslash. -/
def escaped : List UInt8 → List UInt8
  | [] => []
  | c :: rest =>
      if c = '"'.toUInt8 ∨ c = '\\'.toUInt8 then '\\'.toUInt8 :: c :: escaped rest
      else c :: escaped rest

/-- An integer of 64 bits in decimal, or a quoted string. -/
inductive Atom : Value → List UInt8 → Prop
  | positive {digits : List UInt8} (some_digits : digits ≠ [])
      (each : ∀ c ∈ digits, isDigit c = true) (small : digitsValue digits < 2 ^ 63) :
      Atom (.int (digitsValue digits)) digits
  | negative {digits : List UInt8} (some_digits : digits ≠ [])
      (each : ∀ c ∈ digits, isDigit c = true) (small : digitsValue digits ≤ 2 ^ 63) :
      Atom (.int (-(digitsValue digits : Int))) ('-'.toUInt8 :: digits)
  | quoted (text : String) :
      Atom (.str text) ('"'.toUInt8 :: (escaped (asBytes text) ++ ['"'.toUInt8]))

/-- What stands before an item of a list: a comma before all but the first. -/
inductive Separator : Bool → List UInt8 → Prop
  | first {before : List UInt8} (blank : Blank before) : Separator true before
  | comma {before after : List UInt8} (blank : Blank before) (more : Blank after) :
      Separator false (before ++ ','.toUInt8 :: after)

/-- The items of a list through its closing bracket; `first` says that none stands before. -/
inductive Items : Bool → List Value → List UInt8 → Prop
  | close {first : Bool} {before : List UInt8} (blank : Blank before) :
      Items first [] (before ++ [']'.toUInt8])
  | atom {first : Bool} {sep text more : List UInt8} {item : Value} {rest : List Value}
      (separator : Separator first sep) (own : Atom item text) (later : Items false rest more) :
      Items first (item :: rest) (sep ++ (text ++ more))
  | list {first : Bool} {sep text more : List UInt8} {inner rest : List Value}
      (separator : Separator first sep) (own : Items true inner text)
      (later : Items false rest more) :
      Items first (.list inner :: rest) (sep ++ '['.toUInt8 :: (text ++ more))

/-- An integer, a string or a list of these and of lists. -/
inductive Written : Value → List UInt8 → Prop
  | atom {item : Value} {text : List UInt8} (own : Atom item text) : Written item text
  | list {inner : List Value} {text : List UInt8} (own : Items true inner text) :
      Written (.list inner) ('['.toUInt8 :: text)

def isInteger : Value → Bool
  | .int _ => true
  | _ => false

/-- The entries of a section whose sections nest at most `left` deep; `after` says that an
integer stands before, which a name may not follow without a separator. -/
inductive Entries : Nat → Bool → Section → List UInt8 → Prop
  | finish {left : Nat} {after : Bool} {before : List UInt8} (blank : Blank before) :
      Entries left after [] before
  | value {left : Nat} {after : Bool} {before between behind text more : List UInt8}
      {key : String} {found : Value} {rest : Section} (blank : Blank before)
      (apart : after = true → before ≠ []) (name : Name key) (blankBetween : Blank between)
      (blankBehind : Blank behind) (own : Written found text)
      (later : Entries left (isInteger found) rest more) :
      Entries left after ((key, found) :: rest)
        (before ++ (asBytes key ++ (between ++ '='.toUInt8 :: (behind ++ (text ++ more)))))
  | nested {left : Nat} {after : Bool} {before between text more : List UInt8} {key : String}
      {body rest : Section} (blank : Blank before) (apart : after = true → before ≠ [])
      (name : Name key) (blankBetween : Blank between) (own : Entries left false body text)
      (later : Entries (left + 1) false rest more) :
      Entries (left + 1) after ((key, .nested body) :: rest)
        (before ++ (asBytes key ++ (between ++
          '{'.toUInt8 :: (text ++ '}'.toUInt8 :: more))))

/-! ## What is left out -/

/-- A text that does not begin with something to leave out. -/
def Begins (text : List UInt8) : Prop :=
  ∀ c, text.head? = some c → isBlank c = false ∧ c ≠ '#'.toUInt8

theorem begins_cons {c : UInt8} {rest : List UInt8} (token : isBlank c = false ∧ c ≠ '#'.toUInt8) :
    Begins (c :: rest) := by
  rintro _ ⟨⟩
  exact token

theorem isBlank_eq_false {c : UInt8} : isBlank c = false ↔
    c ≠ ' '.toUInt8 ∧ c ≠ '\t'.toUInt8 ∧ c ≠ '\r'.toUInt8 ∧ c ≠ '\n'.toUInt8 := by
  simp [isBlank]

theorem skipFrom_begins {text : List UInt8} (begins : Begins text) (line : Nat) :
    skipFrom false text line = (text, line) := by
  cases text with
  | nil => rfl
  | cons c rest =>
      obtain ⟨blank, hash⟩ := begins c rfl
      obtain ⟨space, tab, back, newline⟩ := isBlank_eq_false.mp blank
      rw [skipFrom, if_neg newline, if_neg (by simp), if_neg (by simp [space, tab, back]),
        if_neg hash]

/-- A comment is left out up to its newline. -/
theorem skipFrom_comment {text : List UInt8} (comment : ∀ c ∈ text, c ≠ '\n'.toUInt8)
    (more : List UInt8) (line : Nat) :
    skipFrom true (text ++ '\n'.toUInt8 :: more) line = skipFrom false more (line + 1) := by
  induction text with
  | nil => rw [List.nil_append, skipFrom, if_pos rfl]
  | cons c rest ih =>
      rw [List.cons_append, skipFrom, if_neg (comment c List.mem_cons_self), if_pos rfl]
      exact ih fun other later => comment other (List.mem_cons_of_mem c later)

theorem skipFrom_blank {before : List UInt8} (blank : Blank before) (text : List UInt8)
    (line : Nat) :
    ∃ next, skipFrom false (before ++ text) line = skipFrom false text next := by
  induction blank generalizing line with
  | empty => exact ⟨line, rfl⟩
  | @blank c more space rest ih =>
      rw [List.cons_append, skipFrom]
      by_cases newline : c = '\n'.toUInt8
      · rw [if_pos newline]
        exact ih (line + 1)
      · have other : c = ' '.toUInt8 ∨ c = '\t'.toUInt8 ∨ c = '\r'.toUInt8 := by
          by_contra none
          simp only [not_or] at none
          rw [isBlank_eq_false.mpr ⟨none.1, none.2.1, none.2.2, newline⟩] at space
          cases space
        rw [if_neg newline, if_neg (by simp), if_pos other]
        exact ih line
  | @comment comment more ended rest ih =>
      rw [List.cons_append, List.append_assoc, List.cons_append, skipFrom, if_neg (by decide),
        if_neg (by simp), if_neg (by decide), if_pos rfl, skipFrom_comment ended]
      exact ih (line + 1)

/-- The cursor moves over what is blank. -/
theorem skip_blank {before text : List UInt8} (blank : Blank before) (begins : Begins text)
    (line depth : Nat) :
    ∃ next, skip ⟨before ++ text, line, depth⟩ = ⟨text, next, depth⟩ := by
  obtain ⟨next, moved⟩ := skipFrom_blank blank text line
  refine ⟨next, ?_⟩
  unfold skip
  rw [moved, skipFrom_begins begins]

theorem skip_begins {text : List UInt8} (begins : Begins text) (line depth : Nat) :
    skip ⟨text, line, depth⟩ = ⟨text, line, depth⟩ := by
  unfold skip
  rw [skipFrom_begins begins]

/-- What is blank begins with no letter, digit, quote or bracket. -/
theorem Blank.head {before : List UInt8} (blank : Blank before) {c : UInt8}
    (first : before.head? = some c) : isName c = false := by
  cases blank with
  | empty => cases first
  | blank space rest =>
      cases first
      simp only [isBlank, List.any_cons, List.any_nil, Bool.or_false, Bool.or_eq_true,
        decide_eq_true_eq] at space
      rcases space with rfl | rfl | rfl | rfl
      all_goals decide
  | comment line rest =>
      cases first
      decide

/-! ## Tokens -/

/-- A run of characters of one kind ends where another begins. -/
theorem takeWhile_append {kind : UInt8 → Bool} {run text : List UInt8}
    (each : ∀ c ∈ run, kind c = true) (ends : ∀ c, text.head? = some c → kind c = false) :
    (run ++ text).takeWhile kind = run ∧ (run ++ text).dropWhile kind = text := by
  induction run with
  | nil =>
      cases text with
      | nil => exact ⟨rfl, rfl⟩
      | cons c rest =>
          rw [List.nil_append, List.takeWhile_cons, List.dropWhile_cons, ends c rfl]
          exact ⟨rfl, rfl⟩
  | cons c rest ih =>
      obtain ⟨taken, dropped⟩ := ih fun other later => each other (List.mem_cons_of_mem c later)
      rw [List.cons_append, List.takeWhile_cons, List.dropWhile_cons, each c List.mem_cons_self,
        if_pos rfl, if_pos rfl, taken, dropped]
      exact ⟨rfl, rfl⟩

theorem begins_of_isName {c : UInt8} {rest : List UInt8} (named : isName c = true) :
    Begins (c :: rest) := by
  refine begins_cons ⟨?_, ?_⟩
  · by_contra space
    rw [Bool.not_eq_false] at space
    rw [Blank.head (.blank space .empty) rfl] at named
    cases named
  · rintro rfl
    revert named
    decide

/-- A name is read up to where it ends. -/
theorem ident_name {key : String} (name : Name key) {before text : List UInt8}
    (blank : Blank before) (ends : ∀ c, text.head? = some c → isName c = false)
    (line depth : Nat) :
    ∃ next, ident ⟨before ++ (asBytes key ++ text), line, depth⟩ =
      .ok (key, ⟨text, next, depth⟩) := by
  obtain ⟨taken, dropped⟩ := takeWhile_append name.named ends
  have begins : Begins (asBytes key ++ text) := by
    cases bytes : asBytes key with
    | nil => exact absurd bytes name.ne
    | cons c rest => exact begins_of_isName (name.named c (bytes ▸ List.mem_cons_self))
  obtain ⟨next, moved⟩ := skip_blank blank begins line depth
  refine ⟨next, ?_⟩
  unfold ident
  simp only [moved, taken, dropped]
  rw [refuseIf_of_not name.ne, ok_bind, fromUtf8Lossy_asBytes]

/-- A string is read up to its closing quote. -/
theorem stringBytes_escaped (bytes text : List UInt8) (line : Nat) :
    ∃ next, stringBytes (escaped bytes ++ '"'.toUInt8 :: text) line = .ok (bytes, text, next) := by
  induction bytes generalizing line with
  | nil =>
      refine ⟨line, ?_⟩
      rw [escaped, List.nil_append, stringBytes.eq_def]
      exact if_pos rfl
  | cons c rest ih =>
      rw [escaped]
      by_cases special : c = '"'.toUInt8 ∨ c = '\\'.toUInt8
      · obtain ⟨next, read⟩ := ih line
        refine ⟨next, ?_⟩
        rw [if_pos special, List.cons_append, List.cons_append, stringBytes, if_neg (by decide),
          if_pos rfl]
        dsimp only
        rw [read, ok_bind]
      · obtain ⟨next, read⟩ := ih (if c = '\n'.toUInt8 then line + 1 else line)
        refine ⟨next, ?_⟩
        rw [not_or] at special
        rw [if_neg (by simpa using special), List.cons_append, stringBytes.eq_def]
        dsimp only
        rw [if_neg special.1, if_neg special.2, read, ok_bind]

theorem isDigit_ne_minus {c : UInt8} (digit : isDigit c = true) : c ≠ '-'.toUInt8 := by
  rintro rfl
  revert digit
  decide

/-- An integer without a sign is read up to where its digits end. -/
theorem integer_positive {digits : List UInt8} (some_digits : digits ≠ [])
    (each : ∀ c ∈ digits, isDigit c = true) (small : digitsValue digits < 2 ^ 63)
    {text : List UInt8} (ends : ∀ c, text.head? = some c → isDigit c = false)
    (line depth : Nat) :
    integer ⟨digits ++ text, line, depth⟩ =
      .ok (.int (digitsValue digits), ⟨text, line, depth⟩) := by
  have unsigned : (digits ++ text).head? ≠ some '-'.toUInt8 := by
    cases digits with
    | nil => exact absurd rfl some_digits
    | cons c rest =>
        intro minus
        exact isDigit_ne_minus (each c List.mem_cons_self) (Option.some.inj minus)
  unfold integer
  simp only [if_neg unsigned, List.drop_zero, (takeWhile_append each ends).1, Nat.zero_add,
    List.take_left, List.drop_left, parseInt, if_neg some_digits, if_neg (by simpa using unsigned :
      ¬ decide ((digits ++ text).head? = some '-'.toUInt8) = true), if_pos small]
  rfl

/-- An integer with a sign is read up to where its digits end. -/
theorem integer_negative {digits : List UInt8} (some_digits : digits ≠ [])
    (each : ∀ c ∈ digits, isDigit c = true) (small : digitsValue digits ≤ 2 ^ 63)
    {text : List UInt8} (ends : ∀ c, text.head? = some c → isDigit c = false)
    (line depth : Nat) :
    integer ⟨'-'.toUInt8 :: (digits ++ text), line, depth⟩ =
      .ok (.int (-(digitsValue digits : Int)), ⟨text, line, depth⟩) := by
  have signed : ('-'.toUInt8 :: (digits ++ text)).head? = some '-'.toUInt8 := rfl
  have written : ('-'.toUInt8 :: (digits ++ text)).take (1 + digits.length) =
      '-'.toUInt8 :: digits := by
    rw [Nat.add_comm, List.take_succ_cons, List.take_left]
  unfold integer
  simp only [if_pos signed, List.drop_succ_cons, List.drop_zero, (takeWhile_append each ends).1,
    written, List.length_cons, List.drop_left, parseInt, if_neg some_digits,
    if_pos (decide_eq_true signed), if_pos small]
  rfl

theorem isDigit_of_isName {c : UInt8} (other : isName c = false) : isDigit c = false := by
  unfold isName at other
  simp only [Bool.or_eq_false_iff] at other
  exact other.1.1.1

theorem begins_of_isDigit {c : UInt8} {rest : List UInt8} (digit : isDigit c = true) :
    Begins (c :: rest) := by
  refine begins_of_isName ?_
  by_contra other
  rw [isDigit_of_isName (Bool.not_eq_true _ ▸ other)] at digit
  cases digit

/-- An atom begins with a quote, a sign or a digit. -/
theorem Atom.begins {found : Value} {text : List UInt8} (own : Atom found text)
    (rest : List UInt8) :
    ∃ c more, text ++ rest = c :: more ∧ Begins (c :: more) ∧ c ≠ ']'.toUInt8 ∧
      c ≠ ','.toUInt8 := by
  cases own with
  | positive some_digits each small =>
      cases text with
      | nil => exact absurd rfl some_digits
      | cons c digits =>
          have digit := each c List.mem_cons_self
          refine ⟨c, digits ++ rest, rfl, begins_of_isDigit digit, ?_, ?_⟩
          · rintro rfl
            revert digit
            decide
          · rintro rfl
            revert digit
            decide
  | negative some_digits each small =>
      exact ⟨_, _, rfl, begins_cons (by decide), by decide, by decide⟩
  | quoted text => exact ⟨_, _, rfl, begins_cons (by decide), by decide, by decide⟩

theorem Atom.length_pos {found : Value} {text : List UInt8} (own : Atom found text) :
    0 < text.length := by
  cases own with
  | positive some_digits each small => exact List.length_pos_iff.mpr some_digits
  | negative some_digits each small => exact Nat.succ_pos _
  | quoted text => exact Nat.succ_pos _

/-- A value is told from its first character. -/
theorem value_begins {c : UInt8} {rest : List UInt8} (begins : Begins (c :: rest))
    (fuel line depth : Nat) :
    value (fuel + 1) ⟨c :: rest, line, depth⟩ =
      if c = '"'.toUInt8 then do
        let (text, p) ← string ⟨rest, line, depth⟩
        .ok (.str text, p)
      else if c = '['.toUInt8 then do
        let (found, p) ← items fuel ⟨rest, line, depth⟩
        .ok (.list found, p)
      else if c = '-'.toUInt8 ∨ isDigit c then integer ⟨c :: rest, line, depth⟩
      else .error (.malformed line "expected a value") := by
  rw [value]
  simp only [skip_begins begins]
  rfl

/-- An atom is read as its value. -/
theorem value_atom {found : Value} {text : List UInt8} (own : Atom found text)
    {rest : List UInt8}
    (ends : isInteger found = true → ∀ c, rest.head? = some c → isDigit c = false)
    (fuel line depth : Nat) :
    ∃ next, value (fuel + 1) ⟨text ++ rest, line, depth⟩ = .ok (found, ⟨rest, next, depth⟩) := by
  cases own with
  | positive some_digits each small =>
      refine ⟨line, ?_⟩
      have read := integer_positive some_digits each small (ends rfl) line depth
      cases text with
      | nil => exact absurd rfl some_digits
      | cons c digits =>
          have digit := each c List.mem_cons_self
          have other : c ≠ '"'.toUInt8 ∧ c ≠ '['.toUInt8 := by
            constructor
            all_goals
              rintro rfl
              revert digit
              decide
          rw [List.cons_append, value_begins (begins_of_isDigit digit), if_neg other.1,
            if_neg other.2, if_pos (.inr digit)]
          exact read
  | negative some_digits each small =>
      refine ⟨line, ?_⟩
      rw [List.cons_append, value_begins (begins_cons (by decide)), if_neg (by decide),
        if_neg (by decide), if_pos (.inl rfl)]
      exact integer_negative some_digits each small (ends rfl) line depth
  | quoted text =>
      obtain ⟨next, read⟩ := stringBytes_escaped (asBytes text) rest line
      refine ⟨next, ?_⟩
      rw [List.cons_append, List.append_assoc, List.singleton_append,
        value_begins (begins_cons (by decide)), if_pos rfl, string, read, ok_bind, ok_bind,
        fromUtf8Lossy_asBytes]

/-! ## Lists -/

/-- What is blank before a character leaves no letter or digit at the front. -/
theorem head_blank_cons {before rest : List UInt8} (blank : Blank before) {first : UInt8}
    (other : isName first = false) {c : UInt8}
    (head : (before ++ first :: rest).head? = some c) : isName c = false := by
  cases before with
  | nil =>
      cases head
      exact other
  | cons d more =>
      cases head
      exact blank.head rfl

/-- After an item comes no digit. -/
theorem Items.head {rest : List Value} {text : List UInt8} (later : Items false rest text)
    (tail : List UInt8) {c : UInt8} (head : (text ++ tail).head? = some c) :
    isDigit c = false := by
  apply isDigit_of_isName
  cases later with
  | close blank =>
      rw [List.append_assoc] at head
      exact head_blank_cons blank (by decide) head
  | atom separator own later =>
      cases separator with
      | comma blank more =>
          rw [List.append_assoc, List.append_assoc, List.cons_append] at head
          exact head_blank_cons blank (by decide) head
  | list separator own later =>
      cases separator with
      | comma blank more =>
          rw [List.append_assoc, List.append_assoc, List.cons_append] at head
          exact head_blank_cons blank (by decide) head

/-- What comes in a list is told from its first character. -/
theorem items_begins {c : UInt8} {rest : List UInt8} (begins : Begins (c :: rest))
    (fuel line depth : Nat) :
    items (fuel + 1) ⟨c :: rest, line, depth⟩ =
      (if c = ']'.toUInt8 then .ok ([], ⟨rest, line, depth⟩)
      else if c = ','.toUInt8 then items fuel ⟨rest, line, depth⟩
      else do
        let (item, p) ← value fuel ⟨c :: rest, line, depth⟩
        let (more, p) ← items fuel p
        .ok (item :: more, p)) := by
  rw [items]
  simp only [skip_begins begins]

/-- The items go on behind what is blank. -/
theorem items_blank {before text : List UInt8} (blank : Blank before) (begins : Begins text)
    (fuel line depth : Nat) :
    ∃ next, items (fuel + 1) ⟨before ++ text, line, depth⟩ =
      items (fuel + 1) ⟨text, next, depth⟩ := by
  obtain ⟨next, moved⟩ := skip_blank blank begins line depth
  refine ⟨next, ?_⟩
  unfold items
  rw [moved, skip_begins begins]

/-- The items go on behind a separator. -/
theorem items_separator {first : Bool} {sep text : List UInt8} (separator : Separator first sep)
    (begins : Begins text) {fuel : Nat} (enough : 2 * (sep ++ text).length + 1 ≤ fuel)
    (line depth : Nat) :
    ∃ left next, 2 * text.length + 1 ≤ left + 1 ∧
      items fuel ⟨sep ++ text, line, depth⟩ = items (left + 1) ⟨text, next, depth⟩ := by
  cases separator with
  | first blank =>
      obtain ⟨left, rfl⟩ := Nat.exists_eq_add_one.mpr (by omega : 0 < fuel)
      obtain ⟨next, same⟩ := items_blank blank begins left line depth
      rw [List.length_append] at enough
      exact ⟨left, next, by omega, same⟩
  | @comma before after blank more =>
      simp only [List.length_append, List.length_cons] at enough
      obtain ⟨left, rfl⟩ : ∃ left, fuel = left + 2 := ⟨fuel - 2, by omega⟩
      have comma : Begins (','.toUInt8 :: (after ++ text)) := begins_cons (by decide)
      obtain ⟨there, skips⟩ := items_blank blank comma (left + 1) line depth
      obtain ⟨next, past⟩ := items_blank more begins left there depth
      refine ⟨left, next, by omega, ?_⟩
      rw [List.append_assoc, List.cons_append, skips, ← past, items_begins comma, if_neg (by decide),
        if_pos rfl]

/-- An item and those after it. -/
theorem items_cons {c : UInt8} {rest after : List UInt8} (begins : Begins (c :: rest))
    (bracket : c ≠ ']'.toUInt8) (comma : c ≠ ','.toUInt8) {fuel line next last depth : Nat}
    {item : Value} {more : List Value} {tail : List UInt8}
    (own : value fuel ⟨c :: rest, line, depth⟩ = .ok (item, ⟨after, next, depth⟩))
    (later : items fuel ⟨after, next, depth⟩ = .ok (more, ⟨tail, last, depth⟩)) :
    items (fuel + 1) ⟨c :: rest, line, depth⟩ = .ok (item :: more, ⟨tail, last, depth⟩) := by
  rw [items_begins begins, if_neg bracket, if_neg comma, own, ok_bind]
  dsimp only
  rw [later, ok_bind]

/-- The items of a list are read as they are written. -/
theorem items_written {first : Bool} {found : List Value} {text : List UInt8}
    (written : Items first found text) (tail : List UInt8) {fuel : Nat}
    (enough : 2 * (text ++ tail).length + 1 ≤ fuel) (line depth : Nat) :
    ∃ next, items fuel ⟨text ++ tail, line, depth⟩ = .ok (found, ⟨tail, next, depth⟩) := by
  induction written generalizing tail fuel line with
  | close blank =>
      obtain ⟨fuel, rfl⟩ := Nat.exists_eq_add_one.mpr (by omega : 0 < fuel)
      have bracket : Begins (']'.toUInt8 :: tail) := begins_cons (by decide)
      obtain ⟨next, skips⟩ := items_blank blank bracket fuel line depth
      refine ⟨next, ?_⟩
      rw [List.append_assoc, List.singleton_append, skips, items_begins bracket, if_pos rfl]
  | @atom first sep text more item rest separator own later ih =>
      obtain ⟨c, body, same, begins, bracket, comma⟩ := own.begins (more ++ tail)
      rw [List.append_assoc, List.append_assoc] at enough ⊢
      obtain ⟨fuel, there, enough, skips⟩ :=
        items_separator separator (same ▸ begins) enough line depth
      have ends : isInteger item = true → ∀ c, (more ++ tail).head? = some c → isDigit c = false :=
        fun _ c => later.head tail
      have shorter := own.length_pos
      rw [List.length_append] at enough
      obtain ⟨fuel, rfl⟩ := Nat.exists_eq_add_one.mpr (by omega : 0 < fuel)
      obtain ⟨next, read⟩ := value_atom own ends fuel there depth
      obtain ⟨last, others⟩ := ih tail (by omega : 2 * (more ++ tail).length + 1 ≤ fuel + 1) next
      refine ⟨last, ?_⟩
      rw [same] at skips read
      rw [same, skips]
      exact items_cons begins bracket comma read others
  | @list first sep text more inner rest separator own later ihOwn ih =>
      have bracket : Begins ('['.toUInt8 :: (text ++ (more ++ tail))) := begins_cons (by decide)
      rw [List.append_assoc, List.cons_append, List.append_assoc] at enough ⊢
      obtain ⟨fuel, there, enough, skips⟩ := items_separator separator bracket enough line depth
      simp only [List.length_append, List.length_cons] at enough
      obtain ⟨fuel, rfl⟩ := Nat.exists_eq_add_one.mpr (by omega : 0 < fuel)
      obtain ⟨next, read⟩ := ihOwn (more ++ tail)
        (by simp only [List.length_append]; omega : 2 * _ + 1 ≤ fuel) there
      obtain ⟨last, others⟩ := ih tail
        (by simp only [List.length_append]; omega : 2 * _ + 1 ≤ fuel + 1) next
      refine ⟨last, ?_⟩
      rw [skips]
      refine items_cons bracket (by decide) (by decide) ?_ others
      rw [value_begins bracket, if_neg (by decide), if_pos rfl, read, ok_bind]

/-- A value is read as it is written. -/
theorem value_written {found : Value} {text : List UInt8} (written : Written found text)
    {before rest : List UInt8} (blank : Blank before)
    (ends : isInteger found = true → ∀ c, rest.head? = some c → isDigit c = false) {fuel : Nat}
    (enough : 2 * (text ++ rest).length ≤ fuel) (line depth : Nat) :
    ∃ next, value (fuel + 1) ⟨before ++ (text ++ rest), line, depth⟩ =
      .ok (found, ⟨rest, next, depth⟩) := by
  have moved : ∀ {c : UInt8} {body : List UInt8}, text ++ rest = c :: body → Begins (c :: body) →
      ∃ next, value (fuel + 1) ⟨before ++ (text ++ rest), line, depth⟩ =
        value (fuel + 1) ⟨text ++ rest, next, depth⟩ := by
    intro c body same begins
    obtain ⟨next, skips⟩ := skip_blank blank (same ▸ begins) line depth
    refine ⟨next, ?_⟩
    rw [value, value, skips, skip_begins (same ▸ begins)]
  cases written with
  | atom own =>
      obtain ⟨c, body, same, begins, _⟩ := own.begins rest
      obtain ⟨there, skips⟩ := moved same begins
      obtain ⟨next, read⟩ := value_atom own ends fuel there depth
      exact ⟨next, skips.trans read⟩
  | @list inner text own =>
      have bracket : Begins ('['.toUInt8 :: (text ++ rest)) := begins_cons (by decide)
      obtain ⟨there, skips⟩ := moved rfl bracket
      simp only [List.cons_append, List.length_cons] at enough
      obtain ⟨next, read⟩ := items_written own rest (by omega : _ + 1 ≤ fuel) there depth
      refine ⟨next, ?_⟩
      rw [skips, List.cons_append, value_begins bracket, if_neg (by decide), if_pos rfl, read,
        ok_bind]

/-! ## Sections -/

/-- What ends a section: the end of the text at the top, a brace below it. -/
def Closes (top : Bool) (tail rest : List UInt8) : Prop :=
  if top then tail = [] ∧ rest = [] else tail = '}'.toUInt8 :: rest

theorem Closes.head {top : Bool} {tail rest : List UInt8} (closes : Closes top tail rest)
    {c : UInt8} (head : tail.head? = some c) : isName c = false := by
  cases top with
  | true =>
      obtain ⟨rfl, _⟩ := closes
      cases head
  | false =>
      obtain rfl : tail = '}'.toUInt8 :: rest := closes
      cases head
      decide

theorem Closes.begins {top : Bool} {tail rest : List UInt8} (closes : Closes top tail rest) :
    Begins tail := by
  cases top with
  | true =>
      obtain ⟨rfl, _⟩ := closes
      rintro c ⟨⟩
  | false =>
      obtain rfl : tail = '}'.toUInt8 :: rest := closes
      exact begins_cons (by decide)

/-- After an integer comes no character of a name. -/
theorem Entries.head {left : Nat} {found : Section} {text : List UInt8}
    (later : Entries left true found text) {top : Bool} {tail rest : List UInt8}
    (closes : Closes top tail rest) {c : UInt8} (head : (text ++ tail).head? = some c) :
    isName c = false := by
  have nonempty : ∀ {before more : List UInt8}, Blank before → before ≠ [] →
      (before ++ more).head? = some c → isName c = false := by
    intro before more blank some_before first
    cases before with
    | nil => exact absurd rfl some_before
    | cons d others =>
        cases first
        exact blank.head rfl
  cases later with
  | finish blank =>
      cases text with
      | nil => exact closes.head head
      | cons d others => exact nonempty blank (List.cons_ne_nil d others) head
  | value blank apart name blankBetween blankBehind own later =>
      rw [List.append_assoc] at head
      exact nonempty blank (apart rfl) head
  | nested blank apart name blankBetween own later =>
      rw [List.append_assoc] at head
      exact nonempty blank (apart rfl) head

/-- The entries go on behind what is blank. -/
theorem entries_blank {before text : List UInt8} (blank : Blank before) (begins : Begins text)
    (fuel : Nat) (top : Bool) (line depth : Nat) :
    ∃ next, entries (fuel + 1) top ⟨before ++ text, line, depth⟩ =
      entries (fuel + 1) top ⟨text, next, depth⟩ := by
  obtain ⟨next, moved⟩ := skip_blank blank begins line depth
  refine ⟨next, ?_⟩
  rw [entries, entries, moved, skip_begins begins]

/-- An entry is told from the character behind its name. -/
theorem entries_key {key : String} (name : Name key) {before between body : List UInt8}
    (blank : Blank before) (blankBetween : Blank between) {c : UInt8}
    (token : isBlank c = false ∧ c ≠ '#'.toUInt8) (other : isName c = false) (fuel : Nat)
    (top : Bool) (line depth : Nat) :
    ∃ next, entries (fuel + 1) top
        ⟨before ++ (asBytes key ++ (between ++ c :: body)), line, depth⟩ =
      (if c = '{'.toUInt8 then do
        let (inner, p) ← sectionBody fuel false ⟨body, next, depth⟩
        let (more, p) ← entries fuel top p
        .ok ((key, .nested inner) :: more, p)
      else if c = '='.toUInt8 then do
        let (found, p) ← value (2 * body.length + 2) ⟨body, next, depth⟩
        let (more, p) ← entries fuel top p
        .ok ((key, found) :: more, p)
      else .error (.malformed next s!"expected '=' or '\x7b' after {key}")) := by
  cases bytes : asBytes key with
  | nil => exact absurd bytes name.ne
  | cons d others =>
      have named := name.named d (bytes ▸ List.mem_cons_self)
      have begins : Begins (d :: (others ++ (between ++ c :: body))) := begins_of_isName named
      have brace : d ≠ '}'.toUInt8 := by
        rintro rfl
        revert named
        decide
      obtain ⟨there, skips⟩ := entries_blank blank begins fuel top line depth
      obtain ⟨past, read⟩ := ident_name name .empty
        (fun e head => head_blank_cons blankBetween other head :
          ∀ e, (between ++ c :: body).head? = some e → isName e = false) there depth
      obtain ⟨next, behind⟩ := skip_blank blankBetween (begins_cons token : Begins (c :: body))
        past depth
      refine ⟨next, ?_⟩
      rw [bytes, List.nil_append, List.cons_append] at read
      rw [List.cons_append, skips, entries]
      simp only [skip_begins begins]
      rw [if_neg (fun both => brace both.1), read, ok_bind]
      simp only [behind]
      rfl

/-- The entries of a section are read as they are written. -/
theorem entries_written {left : Nat} {after : Bool} {found : Section} {text : List UInt8}
    (written : Entries left after found text) {top : Bool} {tail rest : List UInt8}
    (closes : Closes top tail rest) {fuel : Nat} (enough : 2 * (text ++ tail).length + 1 ≤ fuel)
    (line : Nat) {depth : Nat} (bounded : depth + left ≤ 32) :
    ∃ next, entries fuel top ⟨text ++ tail, line, depth⟩ = .ok (found, ⟨rest, next, depth⟩) := by
  induction written generalizing top tail rest fuel line depth with
  | finish blank =>
      obtain ⟨fuel, rfl⟩ := Nat.exists_eq_add_one.mpr (by omega : 0 < fuel)
      obtain ⟨next, skips⟩ := skip_blank blank closes.begins line depth
      refine ⟨next, ?_⟩
      rw [entries, skips]
      cases top with
      | true =>
          obtain ⟨rfl, rfl⟩ := closes
          rfl
      | false =>
          obtain rfl : tail = '}'.toUInt8 :: rest := closes
          exact if_pos ⟨rfl, by simp⟩
  | @value left after before between behind text more key found others blank apart name
      blankBetween blankBehind own later ih =>
      obtain ⟨fuel, rfl⟩ := Nat.exists_eq_add_one.mpr (by omega : 0 < fuel)
      simp only [List.append_assoc, List.cons_append] at enough ⊢
      obtain ⟨there, skips⟩ := @entries_key key name before between
        (behind ++ (text ++ (more ++ tail))) blank blankBetween '='.toUInt8 (by decide) (by decide)
        fuel top line depth
      have ends : isInteger found = true → ∀ c, (more ++ tail).head? = some c → isDigit c = false :=
        fun integer c head => isDigit_of_isName ((integer ▸ later).head closes head)
      obtain ⟨next, read⟩ := value_written own blankBehind ends
        (by simp only [List.length_append]; omega :
          2 * (text ++ (more ++ tail)).length ≤ 2 * (behind ++ (text ++ (more ++ tail))).length + 1)
        there depth
      simp only [List.length_append, List.length_cons] at enough
      obtain ⟨last, rest⟩ := ih closes
        (by rw [List.length_append]; omega : 2 * (more ++ tail).length + 1 ≤ fuel) next bounded
      refine ⟨last, ?_⟩
      rw [skips, if_neg (by decide), if_pos rfl, read, ok_bind]
      dsimp only
      rw [rest, ok_bind]
  | @nested left after before between text more key body others blank apart name blankBetween own
      later ihOwn ih =>
      simp only [List.append_assoc, List.cons_append] at enough ⊢
      simp only [List.length_append, List.length_cons] at enough
      obtain ⟨fuel, rfl⟩ : ∃ less, fuel = less + 2 := ⟨fuel - 2, by omega⟩
      obtain ⟨there, skips⟩ := @entries_key key name before between
        (text ++ '}'.toUInt8 :: (more ++ tail)) blank blankBetween '{'.toUInt8 (by decide)
        (by decide) (fuel + 1) top line depth
      obtain ⟨next, read⟩ := @ihOwn false ('}'.toUInt8 :: (more ++ tail)) (more ++ tail) rfl fuel
        (by simp only [List.length_append, List.length_cons]; omega) there (depth + 1) (by omega)
      obtain ⟨last, rest⟩ := ih closes
        (by rw [List.length_append]; omega : 2 * (more ++ tail).length + 1 ≤ fuel + 1) next bounded
      refine ⟨last, ?_⟩
      rw [skips, if_pos rfl, sectionBody]
      dsimp only
      rw [refuseIf_of_not (by omega), ok_bind, read, ok_bind, ok_bind]
      dsimp only
      rw [Nat.add_sub_cancel, rest, ok_bind]

theorem Entries.congr {left : Nat} {after : Bool} {found : Section} {text other : List UInt8}
    (written : Entries left after found text) (same : text = other) :
    Entries left after found other :=
  same ▸ written

/-- A whole text is read as it is written. -/
theorem sectionBody_written {found : Section} {text : List UInt8}
    (written : Entries 31 false found text) :
    ∃ p, sectionBody (2 * text.length + 2) true ⟨text, 1, 0⟩ = .ok (found, p) := by
  have closes : Closes true [] [] := ⟨rfl, rfl⟩
  obtain ⟨next, read⟩ := entries_written written closes
    (by rw [List.append_nil] : 2 * (text ++ []).length + 1 ≤ 2 * text.length + 1)
    1 (by decide : 1 + 31 ≤ 32)
  rw [List.append_nil] at read
  rw [show 2 * text.length + 2 = 2 * text.length + 1 + 1 from rfl, sectionBody]
  dsimp only
  rw [refuseIf_of_not (by decide), ok_bind, read, ok_bind]
  exact ⟨_, rfl⟩

end Parser

/-- Every way to write a tree whose sections nest at most 31 deep below the top is parsed as
that tree. -/
theorem parseMetadata_written {top : Section} {text : String}
    (written : Parser.Entries 31 false top (asBytes text)) : parseMetadata text = .ok top := by
  obtain ⟨p, read⟩ := Parser.sectionBody_written written
  unfold parseMetadata
  dsimp only
  rw [read, ok_bind]

/-- A section with a negative integer before a name, and a list, between comments. -/
theorem parseMetadata_sample :
    parseMetadata "#[\nvg\x7bn=-7 l=[\"]\\\"\" , 2]\x7d#\"\n" =
      .ok [("vg", .nested [("n", .int (-7)), ("l", .list [.str "]\"", .int 2])])] := by
  open Parser in
  have name : ∀ key ∈ ["vg", "n", "l"], Name key := by
    have each : ∀ key ∈ ["vg", "n", "l"],
        asBytes key ≠ [] ∧ ∀ c ∈ asBytes key, isName c = true := by decide +kernel
    exact fun key listed => ⟨(each key listed).1, (each key listed).2⟩
  have space : Blank [' '.toUInt8] := .blank (by decide) .empty
  have opening : Blank ('#'.toUInt8 :: ([0x5b] ++ '\n'.toUInt8 :: [])) :=
    .comment (by decide +kernel) .empty
  have closing : Blank ('#'.toUInt8 :: ([0x22] ++ '\n'.toUInt8 :: [])) :=
    .comment (by decide +kernel) .empty
  have two : Atom (.int 2) [0x32] := @Atom.positive [0x32] (by decide) (by decide +kernel) (by decide)
  have seven : Atom (.int (-7)) [0x2d, 0x37] :=
    @Atom.negative [0x37] (by decide) (by decide +kernel) (by decide)
  have items := Items.atom (.first .empty) (Atom.quoted "]\"")
    (.atom (.comma space space) two (.close .empty))
  have body := @Entries.value 30 false [] [] [] [0x2d, 0x37] _ "n" _ _ .empty (by simp)
    (name "n" (by simp)) .empty .empty (.atom seven)
    (@Entries.value 30 true [' '.toUInt8] [] [] _ _ "l" _ _ space (by simp) (name "l" (by simp))
      .empty .empty (.list items) (.finish .empty))
  have whole := @Entries.nested 30 false _ [] _ _ "vg" _ _ opening (by simp)
    (name "vg" (by simp)) .empty body (.finish closing)
  exact parseMetadata_written (whole.congr (by decide +kernel))

end DiskPartitions
