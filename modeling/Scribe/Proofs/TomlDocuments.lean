import Scribe.Proofs.KeyedLists
import Scribe.Proofs.TomlStrings
import Scribe.Toml.Document

/-! Documents read back from text. A text spells lines if each stands on its own, a header in its brackets or
a bare key with the text of its value, with empty lines between them as one likes. Lines in sections, a header
and then assignments, make one table for each section. -/

namespace Scribe.Toml

variable {c : Char} {text rest : List Char}

section Numbers

def digitsOf (text : List Char) : List Nat :=
  text.map fun c => c.toNat - '0'.toNat

theorem digitValue?_isDigit (digit : c.isDigit = true) : digitValue? 10 c = some (c.toNat - '0'.toNat) := by
  have bound : c.toNat ≤ 57 := (Char.isDigit_iff_toNat.mp digit).2
  have small : c.toNat - '0'.toNat < 10 := by
    change c.toNat - 48 < 10
    omega
  simp only [digitValue?, digit, if_true, Option.filter_some, decide_eq_true small]

theorem digitRun?_digits (digits : ∀ c ∈ text, c.isDigit = true) :
    digitRun? 10 text = some (digitsOf text, []) := by
  induction text with
  | nil => rfl
  | cons c text ih =>
    obtain ⟨first, others⟩ := List.forall_mem_cons.mp digits
    rw [digitRun?.eq_def]
    simp only [digitValue?_isDigit first]
    split
    next rest => exact absurd (others '_' List.mem_cons_self) (by decide)
    next =>
      rw [ih others]
      rfl

theorem ofDigits_toDigits (value : Nat) : ofDigits 10 (digitsOf (Nat.toDigits 10 value)) = value := by
  rw [ofDigits, digitsOf, List.foldl_map]
  exact Nat.ofDigitChars_ten_toDigits

theorem expect?_digits {mark : Char} (other : mark.isDigit = false) (digits : ∀ c ∈ text, c.isDigit = true) :
    expect? mark text = none := by
  cases text with
  | nil => rfl
  | cons c text =>
    have noMark : c ≠ mark := Text.ne_of_test (digits c List.mem_cons_self) mark other
    rw [expect?, if_neg noMark]

theorem afterDate?_digits (digits : ∀ c ∈ text, c.isDigit = true) : afterDate? text = none := by
  unfold afterDate?
  split
  next a b c d more =>
    have noDash : expect? '-' more = none := expect?_digits rfl fun e member => digits e (by simp [member])
    split
    next => simp [noDash]
    next => rfl
  next => rfl

theorem subset_of_twoDigits? {low high value : Nat} (found : twoDigits? low high text = some (value, rest)) :
    rest ⊆ text := by
  unfold twoDigits? at found
  split at found
  next a b more =>
    split at found
    next =>
      dsimp only at found
      split at found
      next =>
        cases found
        exact fun c member => by simp [member]
      next => cases found
    next => cases found
  next => cases found

theorem afterTime?_digits (digits : ∀ c ∈ text, c.isDigit = true) : afterTime? text = none := by
  cases hour : twoDigits? 0 23 text with
  | none => simp [afterTime?, hour]
  | some found =>
    obtain ⟨value, more⟩ := found
    have noColon : expect? ':' more = none :=
      expect?_digits rfl fun c member => digits c (subset_of_twoDigits? hour member)
    simp [afterTime?, hour, noColon]

theorem wholeDigits?_digits (digits : ∀ d ∈ c :: text, d.isDigit = true) (nonzero : c ≠ '0') :
    wholeDigits? (c :: text) = some (digitsOf (c :: text), []) := by
  rw [wholeDigits?, someDigits?, digitRun?_digits digits]
  · rfl
  · intro rest same
    exact nonzero (List.cons.inj same).1

theorem sign_digits (digits : ∀ d ∈ c :: text, d.isDigit = true) : sign (c :: text) = (false, c :: text) := by
  have digit := digits c List.mem_cons_self
  rw [sign]
  · intro rest same
    exact Text.ne_of_test digit '-' rfl (List.cons.inj same).1
  · intro rest same
    exact Text.ne_of_test digit '+' rfl (List.cons.inj same).1

/-- Digits alone are taken for an integer, not for a float or a time. -/
theorem scalarOf?_toDigits (value : Nat) (small : value < 1 <<< 63) :
    scalarOf? (Nat.toDigits 10 value) = some (.integer value) := by
  rcases Nat.eq_zero_or_pos value with rfl | positive
  · rfl
  · have digits : ∀ c ∈ Nat.toDigits 10 value, c.isDigit = true :=
      fun c => Nat.isDigit_of_mem_toDigits (by decide) (by decide)
    have magnitude := ofDigits_toDigits value
    obtain ⟨c, more, started, nonzero⟩ := Text.toDigits_head value positive
    rw [started] at digits magnitude ⊢
    have digit := digits c List.mem_cons_self
    have untimed : isDateTime (c :: more) = false := by
      simp [isDateTime, afterDate?_digits digits, afterTime?_digits digits]
    have whole := wholeDigits?_digits digits nonzero
    have noFloat : float? (c :: more) = none := by
      have decimal : decimal? (c :: more) = none := by
        simp [decimal?, whole, exponent?, fraction?]
      simp [float?, sign_digits digits, decimal, Text.ne_of_test digit]
    have integer : integer? (c :: more) = some (.integer value) := by
      have inRange : integerOf? false value = some (.integer value) := by
        rw [integerOf?, if_neg Bool.false_ne_true, if_pos small]
      rw [integer?, sign_digits digits]
      · simp [whole, magnitude, inRange]
      all_goals
        intro rest same
        exact nonzero (List.cons.inj same).1
    simp [scalarOf?, untimed, noFloat, integer, Text.ne_of_test digit]

end Numbers

section Values

theorem scalar?_line {value : Value} (inside : ∀ c ∈ text, isScalarChar c = true)
    (found : scalarOf? text = some value) : scalar? (text ++ '\n' :: rest) = some (value, '\n' :: rest) := by
  have stopped : ∀ c ∈ ('\n' :: rest).head?, isScalarChar c = false := by simp [isScalarChar]
  obtain ⟨taken, dropped⟩ := Text.span_of_stop inside stopped
  rw [scalar?]
  simp only [taken, dropped]
  split
  next same => cases same
  next => rw [found, Option.map_some]

/-- A text that stands for a value at the end of a line. -/
structure Value.Spelled (value : Value) (text : List Char) : Prop where
  read (rest : List Char) : value? nestingLimit (text ++ '\n' :: rest) = some (value, '\n' :: rest)
  start : ∃ c more, text = c :: more ∧ isBlank c = false

theorem spelled_scalar {value : Value} {c : Char} {more : List Char}
    (inside : ∀ d ∈ c :: more, isScalarChar d = true) (found : scalarOf? (c :: more) = some value) :
    value.Spelled (c :: more) where
  read rest := by
    have read : scalar? (c :: more ++ '\n' :: rest) = some (value, '\n' :: rest) := scalar?_line inside found
    have other := Text.ne_of_test (inside c List.mem_cons_self)
    rw [List.cons_append] at read ⊢
    rw [value?, read]
    all_goals
      intro tail same
      exact other _ (by rfl) (List.cons.inj same).1
  start := by
    have other := Text.ne_of_test (inside c List.mem_cons_self)
    exact ⟨c, more, rfl, by simp [isBlank, other ' ' rfl, other '\t' rfl]⟩

theorem spelled_boolean (value : Bool) :
    (Value.boolean value).Spelled (if value then "true" else "false").toList := by
  cases value with
  | false => exact spelled_scalar (List.all_eq_true.mp rfl) rfl
  | true => exact spelled_scalar (List.all_eq_true.mp rfl) rfl

theorem spelled_natural {value : Nat} (small : value < 1 <<< 63) :
    (Value.integer value).Spelled (Nat.toDigits 10 value) := by
  have inside : ∀ c ∈ Nat.toDigits 10 value, isScalarChar c = true := by
    intro c member
    simp [isScalarChar, Char.isAlphanum, Nat.isDigit_of_mem_toDigits (by decide) (by decide) member]
  have found := scalarOf?_toDigits value small
  obtain ⟨c, more, started⟩ := List.exists_cons_of_ne_nil (@Nat.toDigits_ne_nil value 10)
  rw [started] at inside found ⊢
  exact spelled_scalar inside found

theorem value?_string (levels : Nat) (string : String) (apart : Unquoted rest) :
    value? levels ((written string).toList ++ rest) = some (.string string, rest) := by
  obtain ⟨quote, more, started, isQuote⟩ := written_head string
  have read := string?_written string apart
  rw [started, List.cons_append] at read ⊢
  rcases isQuote with rfl | rfl
  · rw [value?, read, Option.map_some]
  · rw [value?, read, Option.map_some]

theorem spelled_string (string : String) : (Value.string string).Spelled (written string).toList where
  read rest := value?_string nestingLimit string (by simp [Unquoted])
  start := by
    obtain ⟨quote, more, started, isQuote⟩ := written_head string
    exact ⟨quote, more, started, by rcases isQuote with rfl | rfl <;> rfl⟩

section Items

variable {item : List Char → Option (Value × List Char)} {rounds : Nat} {before after : List Char}
  {value : Value} {values : List Value}

theorem arrayItems?_item (skipped : skipLayout false before = c :: text) (unclosed : c ≠ ']')
    (found : item (c :: text) = some (value, ',' :: after))
    (others : arrayItems? item rounds after = some (values, rest)) :
    arrayItems? item (rounds + 1) before = some (value :: values, rest) := by
  rw [arrayItems?]
  split
  next closed =>
    rw [skipped] at closed
    exact absurd (List.cons.inj closed).1 unclosed
  next =>
    have skips : skipLayout false (',' :: after) = ',' :: after := rfl
    simp [skipped, found, skips, others]

theorem arrayItems?_last (skipped : skipLayout false before = c :: text) (unclosed : c ≠ ']')
    (found : item (c :: text) = some (value, ']' :: rest)) :
    arrayItems? item (rounds + 1) before = some ([value], rest) := by
  rw [arrayItems?]
  split
  next closed =>
    rw [skipped] at closed
    exact absurd (List.cons.inj closed).1 unclosed
  next =>
    have skips : skipLayout false (']' :: rest) = ']' :: rest := rfl
    simp [skipped, found, skips]

end Items

theorem skipLayout_string (string : String) (rest : List Char) :
    ∃ quote text, (written string).toList ++ rest = quote :: text ∧ quote ≠ ']' ∧
      skipLayout false (quote :: text) = quote :: text := by
  obtain ⟨quote, more, started, isQuote⟩ := written_head string
  refine ⟨quote, more ++ rest, by rw [started, List.cons_append], ?_⟩
  rcases isQuote with rfl | rfl
  · exact ⟨by decide, rfl⟩
  · exact ⟨by decide, rfl⟩

/-- An item of a list on a line of its own. -/
def itemLine (item : String) : List Char :=
  "    ".toList ++ ((written item).toList ++ [',', '\n'])

theorem arrayItems?_lines (levels : Nat) (items : List String) (rest : List Char) {rounds : Nat}
    (enough : items.length < rounds) :
    arrayItems? (value? levels) rounds ('\n' :: (items.flatMap itemLine ++ ']' :: rest)) =
      some (items.map .string, rest) := by
  induction items generalizing rounds with
  | nil =>
    obtain ⟨rounds, rfl⟩ := Nat.exists_eq_add_of_le' (Nat.one_le_of_lt enough)
    rfl
  | cons item items ih =>
    obtain ⟨rounds, rfl⟩ := Nat.exists_eq_add_of_le' (Nat.one_le_of_lt enough)
    have others := ih (Nat.lt_of_succ_lt_succ enough)
    have read : value? levels ((written item).toList ++ ',' :: '\n' :: (items.flatMap itemLine ++ ']' :: rest)) =
        some (.string item, ',' :: '\n' :: (items.flatMap itemLine ++ ']' :: rest)) :=
      value?_string levels item (by simp [Unquoted])
    obtain ⟨quote, text, started, unclosed, kept⟩ :=
      skipLayout_string item (',' :: '\n' :: (items.flatMap itemLine ++ ']' :: rest))
    simp only [List.flatMap_cons, itemLine, List.append_assoc, List.cons_append, List.nil_append, started]
    rw [started] at read
    exact arrayItems?_item kept unclosed read others

theorem value?_array {levels : Nat} {items : List Value}
    (found : arrayItems? (value? levels) (text.length + 1) text = some (items, rest)) :
    value? (levels + 1) ('[' :: text) = some (.array items, rest) := by
  rw [value?, found, Option.map_some]

theorem length_le_itemLines (items : List String) : items.length ≤ (items.flatMap itemLine).length := by
  induction items with
  | nil => exact Nat.le_refl 0
  | cons item items ih =>
    simp only [List.flatMap_cons, itemLine, List.length_append, List.length_cons]
    omega

end Values

section Lines

/-- A name that may stand as a key without quotes. -/
def Bare (name : List Char) : Prop :=
  name ≠ [] ∧ name.all isKeyChar = true

instance (name : List Char) : Decidable (Bare name) :=
  inferInstanceAs (Decidable (_ ∧ _))

variable {name : List Char}

theorem keyName?_bare (bare : Bare name) (stopped : ∀ c ∈ text.head?, isKeyChar c = false) :
    keyName? (name ++ text) = some (.ofList name, text) := by
  obtain ⟨nonempty, allowed⟩ := bare
  have inside := List.all_eq_true.mp allowed
  obtain ⟨taken, dropped⟩ := Text.span_of_stop inside stopped
  rw [keyName?]
  · simp [taken, dropped, nonempty]
  all_goals
    intro rest same
    obtain ⟨c, more, rfl⟩ := List.exists_cons_of_ne_nil nonempty
    exact Text.ne_of_test (inside c List.mem_cons_self) _ (by rfl) (List.cons.inj same).1

theorem Bare.head (bare : Bare name) :
    ∃ c more, name = c :: more ∧ ∀ mark, isKeyChar mark = false → c ≠ mark := by
  obtain ⟨c, more, rfl⟩ := List.exists_cons_of_ne_nil bare.1
  exact ⟨c, more, rfl, Text.ne_of_test (List.all_eq_true.mp bare.2 c List.mem_cons_self)⟩

theorem key?_bare (bare : Bare name) (text : List Char) (stopped : ∀ c ∈ text.head?, isKeyChar c = false)
    (after : text.dropWhile isBlank = c :: rest) (single : c ≠ '.') :
    key? nestingLimit (name ++ text) = some ([.ofList name], c :: rest) := by
  have unblank : (name ++ text).dropWhile isBlank = name ++ text := by
    obtain ⟨first, more, rfl, other⟩ := bare.head
    exact List.dropWhile_cons_of_neg (by simp [isBlank, other ' ' rfl, other '\t' rfl])
  change key? (78 + 1) _ = _
  rw [key?, unblank, keyName?_bare bare stopped]
  simp only [Option.bind_eq_bind, Option.bind_some, after]
  split
  next same => exact absurd (List.cons.inj same).1 single
  next => rfl

theorem line?_header {name : String} (bare : Bare name.toList) (rest : List Char) :
    line? ('[' :: (name.toList ++ ']' :: '\n' :: rest)) = some (.header [] name, rest) := by
  have key := key?_bare bare (']' :: '\n' :: rest) (by simp [isKeyChar]) rfl (by decide)
  have ended : afterLine? ('\n' :: rest) = some rest := rfl
  obtain ⟨c, more, started, other⟩ := bare.head
  rw [line?]
  · simp [header?, key, splitKey?, ended]
  · intro tail same
    rw [started] at same
    exact other '[' rfl (List.cons.inj same).1

theorem line?_assignment {name : String} {value : Value} (bare : Bare name.toList)
    (spelled : value.Spelled text) (rest : List Char) :
    line? (name.toList ++ ' ' :: '=' :: ' ' :: (text ++ '\n' :: rest)) =
      some (.assignment [] name value, rest) := by
  have key := key?_bare bare (' ' :: '=' :: ' ' :: (text ++ '\n' :: rest)) (by simp [isKeyChar]) rfl (by decide)
  have unblank : (' ' :: (text ++ '\n' :: rest)).dropWhile isBlank = text ++ '\n' :: rest := by
    obtain ⟨c, more, rfl, visible⟩ := spelled.start
    rw [List.dropWhile_cons_of_pos rfl]
    exact List.dropWhile_cons_of_neg (by simp [visible])
  have ended : afterLine? ('\n' :: rest) = some rest := rfl
  obtain ⟨c, more, started, other⟩ := bare.head
  have unbracketed : ∀ tail, name.toList ++ ' ' :: '=' :: ' ' :: (text ++ '\n' :: rest) ≠ '[' :: tail := by
    intro tail same
    rw [started] at same
    exact other '[' rfl (List.cons.inj same).1
  rw [line?]
  · simp [assignment?, key, splitKey?, expect?, unblank, spelled.read, ended]
  · exact fun tail => unbracketed _
  · exact unbracketed

def headerText (name : String) : List Char :=
  '[' :: (name.toList ++ [']', '\n'])

def assignmentText (name : String) (spelling : List Char) : List Char :=
  name.toList ++ ' ' :: '=' :: ' ' :: (spelling ++ ['\n'])

/-- The texts of lines one after the other, with empty lines between them. -/
inductive Spells : List Line → List Char → Prop
  | done : Spells [] []
  | blank {lines : List Line} {text : List Char} (rest : Spells lines text) : Spells lines ('\n' :: text)
  | header {name : String} {lines : List Line} {text : List Char} (bare : Bare name.toList)
      (rest : Spells lines text) : Spells (.header [] name :: lines) (headerText name ++ text)
  | assignment {name : String} {value : Value} {lines : List Line} {spelling text : List Char}
      (bare : Bare name.toList) (spelled : value.Spelled spelling) (rest : Spells lines text) :
      Spells (.assignment [] name value :: lines) (assignmentText name spelling ++ text)

theorem linesWithin_line {line : Line} {lines : List Line} {rounds : Nat} (other : c ≠ '\n' ∧ c ≠ '\r' ∧ c ≠ '#')
    (visible : isBlank c = false) (first : line? (c :: text) = some (line, rest))
    (others : linesWithin rounds rest = some lines) :
    linesWithin (rounds + 1) (c :: text) = some (line :: lines) := by
  rw [linesWithin, List.dropWhile_cons_of_neg (by simp [visible])]
  simp [other, first, others]

theorem Spells.linesWithin {lines : List Line} (spells : Spells lines text) (rounds : Nat)
    (enough : text.length ≤ rounds) : linesWithin rounds text = some lines := by
  induction spells generalizing rounds with
  | done => cases rounds <;> rfl
  | @blank lines text _ ih =>
    obtain ⟨rounds, rfl⟩ := Nat.exists_eq_add_of_le' (Nat.one_le_of_lt enough)
    exact ih rounds (Nat.le_of_succ_le_succ enough)
  | @header name lines text bare _ ih =>
    simp only [headerText, List.cons_append, List.append_assoc, List.nil_append] at enough ⊢
    obtain ⟨rounds, rfl⟩ := Nat.exists_eq_add_of_le' (Nat.one_le_of_lt enough)
    have continued : text.length ≤ rounds := by
      simp only [List.length_cons, List.length_append] at enough
      omega
    exact linesWithin_line (by decide) rfl (line?_header bare text) (ih rounds continued)
  | @assignment name value lines spelling text bare spelled _ ih =>
    have first := line?_assignment bare spelled text
    obtain ⟨c, more, started, other⟩ := bare.head
    simp only [assignmentText, started, List.cons_append, List.append_assoc, List.nil_append] at first enough ⊢
    obtain ⟨rounds, rfl⟩ := Nat.exists_eq_add_of_le' (Nat.one_le_of_lt enough)
    have continued : text.length ≤ rounds := by
      simp only [List.length_cons, List.length_append] at enough
      omega
    have visible : isBlank c = false := by simp [isBlank, other ' ' rfl, other '\t' rfl]
    exact linesWithin_line ⟨other _ rfl, other _ rfl, other _ rfl⟩ visible first (ih rounds continued)

theorem Spells.lines? {lines : List Line} {text : String} (spells : Spells lines text.toList)
    (unmarked : text.toList.head? ≠ some '\uFEFF') : lines? text = some lines := by
  rw [Toml.lines?]
  split
  next rest marked => exact absurd (by rw [marked]; rfl) unmarked
  next => exact spells.linesWithin _ (Nat.le_refl _)

end Lines

section Sections

variable {name key : String} {fields : List (String × Value)} {place : List String}

theorem setField_append (value : Value) (absent : name ∉ fields.map Prod.fst) (rest : List (String × Value)) :
    Value.setField name value (fields ++ rest) = fields ++ Value.setField name value rest := by
  induction fields with
  | nil => rfl
  | cons field fields ih =>
    rw [List.map_cons, List.mem_cons, not_or] at absent
    obtain ⟨first, others⟩ := absent
    rw [List.cons_append, Value.setField, if_neg (Ne.symm first), ih others, List.cons_append]

/-- A table for each section so far, and the fields of the last one. -/
def Builder.within (tables : List (String × Value)) (name : String) (fields : List (String × Value)) : Builder :=
  ⟨.table .header (tables ++ [(name, .table .header fields)]), [name]⟩

variable {tables : List (String × Value)}

theorem add?_header (absent : name ∉ tables.map Prod.fst) :
    Builder.add? ⟨.table .header tables, place⟩ (.header [] name) = some (.within tables name []) := by
  have appended := setField_append (.emptyTable .header) absent []
  rw [List.append_nil] at appended
  simp only [Builder.add?, Value.changeAt, Value.openTable, lookup_eq_none absent, appended]
  rfl

theorem add?_assignment {value : Value} (absent : name ∉ tables.map Prod.fst)
    (fresh : key ∉ fields.map Prod.fst) :
    Builder.add? (.within tables name fields) (.assignment [] key value) =
      some (.within tables name (fields ++ [(key, value)])) := by
  have found : (tables ++ [(name, Value.table .header fields)]).lookup name = some (.table .header fields) := by
    simp [List.lookup_append, lookup_eq_none absent]
  have replaced := setField_append (.table .header (fields ++ [(key, value)])) absent
    [(name, Value.table .header fields)]
  rw [Value.setField, if_pos rfl] at replaced
  simp [Builder.within, Builder.add?, Value.changeAt, found, Value.assign, Value.addField, lookup_eq_none fresh,
    replaced]

theorem foldlM_assignments (absent : name ∉ tables.map Prod.fst) (more : List (String × Value))
    (distinct : ((fields ++ more).map Prod.fst).Nodup) :
    (more.map fun field => Line.assignment [] field.1 field.2).foldlM Builder.add? (.within tables name fields) =
      some (.within tables name (fields ++ more)) := by
  induction more generalizing fields with
  | nil =>
    rw [List.append_nil]
    rfl
  | cons field more ih =>
    have fresh : field.1 ∉ fields.map Prod.fst := by
      rw [List.map_append, List.map_cons] at distinct
      intro member
      exact (List.nodup_append.mp distinct).2.2 _ member _ List.mem_cons_self rfl
    rw [List.append_cons] at distinct ⊢
    rw [List.map_cons, List.foldlM_cons, add?_assignment absent fresh]
    exact ih distinct

/-- The header and the assignments of a section. -/
def sectionLines (part : String × List (String × Value)) : List Line :=
  .header [] part.1 :: part.2.map fun field => .assignment [] field.1 field.2

def sectionTable (part : String × List (String × Value)) : String × Value :=
  (part.1, .table .header part.2)

theorem foldlM_sections {sections : List (String × List (String × Value))}
    (distinct : ((tables ++ sections.map sectionTable).map Prod.fst).Nodup)
    (each : ∀ part ∈ sections, (part.2.map Prod.fst).Nodup) :
    ((sections.flatMap sectionLines).foldlM Builder.add? ⟨.table .header tables, place⟩).map Builder.root =
      some (.table .header (tables ++ sections.map sectionTable)) := by
  induction sections generalizing tables place with
  | nil =>
    rw [List.map_nil, List.append_nil]
    rfl
  | cons part sections ih =>
    obtain ⟨first, others⟩ := List.forall_mem_cons.mp each
    have absent : part.1 ∉ tables.map Prod.fst := by
      rw [List.map_append, List.map_cons, List.map_cons] at distinct
      intro member
      exact (List.nodup_append.mp distinct).2.2 _ member _ List.mem_cons_self rfl
    have filled : (sectionLines part).foldlM Builder.add? ⟨.table .header tables, place⟩ =
        some (.within tables part.1 part.2) := by
      rw [sectionLines, List.foldlM_cons, add?_header absent]
      exact @foldlM_assignments part.1 [] tables absent part.2 first
    rw [List.map_cons, List.append_cons] at distinct ⊢
    rw [List.flatMap_cons, List.foldlM_append, filled]
    exact ih distinct others

/-- Sections with different names, and different keys in each, make a table of tables. -/
theorem ofLines?_sections {sections : List (String × List (String × Value))}
    (distinct : (sections.map Prod.fst).Nodup) (each : ∀ part ∈ sections, (part.2.map Prod.fst).Nodup) :
    ofLines? (sections.flatMap sectionLines) = some (.table .header (sections.map sectionTable)) := by
  have named : ((sections.map sectionTable).map Prod.fst).Nodup := by
    rw [List.map_map]
    exact distinct
  exact foldlM_sections named each

end Sections

end Scribe.Toml
