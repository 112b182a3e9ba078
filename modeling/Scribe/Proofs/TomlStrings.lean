import Scribe.Proofs.TextCuts
import Scribe.Toml.Quoted

/-! Strings read back from the form that was picked for them. A form with escapes can hold every text, and one
without is picked only for a text that it can hold. Between three quotes at either side, quotes at the end of
the text run into the closing ones, and the reader tells them apart by their number. -/

namespace Scribe.Toml

variable {c quote : Char} {chars letters tail text rest : List Char} {count quotes : Nat}

theorem plain_of_visible (visible : needsEscape c = false) :
    c ≠ '\r' ∧ (c = '\n' ∨ isPlain c = true) := by
  constructor
  · rintro rfl
    cases visible
  · simp only [needsEscape, isPlain] at visible ⊢
    grind

section Escapes

/-- What stands for a character after a backslash. A line that goes on after the backslash has no end there. -/
structure Escapes (letters : List Char) (c : Char) : Prop where
  reads (tail : List Char) : escape? (letters ++ tail) = some (c, tail)
  goesOn (tail : List Char) : endsLine (letters ++ tail) = false

theorem escapes_control (control : needsEscape c = true) :
    Escapes ['u', '0', '0', upperHex (c.toNat / 16), upperHex (c.toNat % 16)] c := by
  have digits : ∀ value < 128,
      Json.hexNumber? ['0', '0', upperHex (value / 16), upperHex (value % 16)] = some value := by
    decide
  have small : c.toNat < 128 := by
    simp only [needsEscape, Bool.or_eq_true, Bool.and_eq_true, decide_eq_true_eq] at control
    rcases control with ⟨⟨low, _⟩, _⟩ | rfl
    · exact Nat.lt_of_lt_of_le (show c.toNat < 32 from low) (by decide)
    · decide
  have valid : c.toNat.isValidChar := c.valid
  refine ⟨fun tail => ?_, fun _ => rfl⟩
  simp [escape?, hexChar?, digits c.toNat small, charOf?, valid, Char.ofNat_toNat]

/-- A character is escaped or stands for itself. -/
theorem escaped_cases (c : Char) :
    (escaped c = [c] ∧ c ≠ '\\' ∧ needsEscape c = false) ∨
      ∃ letters, escaped c = '\\' :: letters ∧ Escapes letters c := by
  by_cases short : c ∈ ['\x08', '\t', '\x0c', '\r', '\\']
  · right
    simp only [List.mem_cons, List.not_mem_nil, or_false] at short
    rcases short with rfl | rfl | rfl | rfl | rfl <;> exact ⟨_, rfl, fun _ => rfl, fun _ => rfl⟩
  · simp only [List.mem_cons, List.not_mem_nil, or_false, not_or] at short
    cases control : needsEscape c with
    | true => exact .inr ⟨_, by simp [escaped, short, control], escapes_control control⟩
    | false => exact .inl ⟨by simp [escaped, short, control], by simp [short], rfl⟩

end Escapes

section OneLine

theorem basic?_escape (escapes : Escapes letters c) (found : basic? tail = some (text, rest)) :
    basic? ('\\' :: (letters ++ tail)) = some (c :: text, rest) := by
  rw [basic?.eq_def]
  simp only [reduceIte, Char.reduceEq]
  split
  next plain after read =>
    cases (escapes.reads tail).symm.trans read
    rw [found]
    rfl
  next unread => cases (escapes.reads tail).symm.trans unread

theorem basic?_escapedOnLine (c : Char) (found : basic? tail = some (text, rest)) :
    basic? (escapedOnLine c ++ tail) = some (c :: text, rest) := by
  by_cases isQuote : c = '"'
  · subst isQuote
    exact basic?_escape ⟨fun _ => rfl, fun _ => rfl⟩ found
  by_cases isBreak : c = '\n'
  · subst isBreak
    exact basic?_escape ⟨fun _ => rfl, fun _ => rfl⟩ found
  rw [escapedOnLine, if_neg isQuote, if_neg isBreak]
  rcases escaped_cases c with ⟨itself, noBackslash, visible⟩ | ⟨letters, written, escapes⟩
  · have plain : isPlain c = true := (plain_of_visible visible).2.resolve_left isBreak
    rw [itself, List.singleton_append, basic?.eq_def]
    simp [isQuote, noBackslash, plain, found]
  · rw [written]
    exact basic?_escape escapes found

theorem basic?_written (chars rest : List Char) :
    basic? (chars.flatMap escapedOnLine ++ '"' :: rest) = some (chars, rest) := by
  induction chars with
  | nil =>
    rw [List.flatMap_nil, List.nil_append, basic?.eq_def]
    rfl
  | cons c chars ih =>
    rw [List.flatMap_cons, List.append_assoc]
    exact basic?_escapedOnLine c ih

theorem literal?_written (plain : ∀ c ∈ chars, isPlain c = true ∧ c ≠ '\'') (rest : List Char) :
    literal? (chars ++ '\'' :: rest) = some (chars, rest) := by
  have allowed : ∀ c ∈ chars, (isPlain c && c ≠ '\'') = true := by
    simpa using plain
  have closed : ∀ c ∈ ('\'' :: rest).head?, (isPlain c && c ≠ '\'') = false := by simp
  obtain ⟨taken, dropped⟩ := Text.span_of_stop allowed closed
  simp only [literal?, taken, dropped]

end OneLine

section ThreeQuotes

theorem closing?_quotes (few : count ≤ 2) (apart : rest.head? ≠ some quote) :
    closing? quote (List.replicate count quote ++ (threeQuotes quote ++ rest)) =
      some (List.replicate count quote, rest) := by
  have counts : count = 0 ∨ count = 1 ∨ count = 2 := by omega
  rcases rest with _ | ⟨d, _ | ⟨e, rest⟩⟩ <;> rcases counts with rfl | rfl | rfl <;>
    simp_all [closing?, threeQuotes, List.replicate]

theorem closing?_eq_none (few : count ≤ 2) (other : c ≠ quote) :
    closing? quote (List.replicate count quote ++ c :: tail) = none := by
  have counts : count = 0 ∨ count = 1 ∨ count = 2 := by omega
  rcases tail with _ | ⟨d, _ | ⟨e, tail⟩⟩ <;> rcases counts with rfl | rfl | rfl <;>
    simp [closing?, List.replicate, other]

/-- How a reader between three quotes treats quotes. -/
structure TakesQuotes (quote : Char) (read : List Char → Option (List Char × List Char)) : Prop where
  closes {tail : List Char} {ended : List Char × List Char} (closed : closing? quote tail = some ended) :
    read tail = some ended
  keeps {tail text rest : List Char} (unclosed : closing? quote (quote :: tail) = none)
    (found : read tail = some (text, rest)) : read (quote :: tail) = some (quote :: text, rest)

namespace TakesQuotes

variable {read : List Char → Option (List Char × List Char)}

theorem run (takes : TakesQuotes quote read) (few : count ≤ 2) (other : c ≠ quote)
    (found : read (c :: tail) = some (text, rest)) :
    read (List.replicate count quote ++ c :: tail) = some (List.replicate count quote ++ text, rest) := by
  induction count with
  | zero => exact found
  | succ count ih =>
    have unclosed : closing? quote (List.replicate (count + 1) quote ++ c :: tail) = none :=
      closing?_eq_none few other
    rw [List.replicate_succ, List.cons_append] at unclosed ⊢
    exact takes.keeps unclosed (ih (by omega))

end TakesQuotes

theorem head_of_closing? {ended : List Char × List Char} (closed : closing? quote tail = some ended) :
    ∃ more, tail = quote :: more := by
  unfold closing? at closed
  split at closed
  next a b c more =>
    split at closed
    next same => exact ⟨b :: c :: more, by rw [same.1]⟩
    next => cases closed
  next => cases closed

theorem multilineBasic?_takesQuotes : TakesQuotes '"' (multilineBasic? false) where
  closes := by
    intro tail ended closed
    obtain ⟨more, rfl⟩ := head_of_closing? closed
    rw [multilineBasic?.eq_def]
    simp [closed]
  keeps := by
    intro tail text rest unclosed found
    rw [multilineBasic?.eq_def]
    simp [unclosed, found, isPlain]

theorem multilineLiteral?_takesQuotes : TakesQuotes '\'' multilineLiteral? where
  closes := by
    intro tail ended closed
    obtain ⟨more, rfl⟩ := head_of_closing? closed
    rw [multilineLiteral?, closed]
  keeps := by
    intro tail text rest unclosed found
    rw [multilineLiteral?, unclosed]
    simp [found, isPlain]

theorem multilineBasic?_escape (escapes : Escapes letters c)
    (found : multilineBasic? false tail = some (text, rest)) :
    multilineBasic? false ('\\' :: (letters ++ tail)) = some (c :: text, rest) := by
  rw [multilineBasic?.eq_def]
  simp only [Bool.false_and, Bool.false_eq_true, reduceIte, escapes.goesOn]
  split
  next plain after read =>
    cases (escapes.reads tail).symm.trans read
    rw [found]
    rfl
  next unread => cases (escapes.reads tail).symm.trans unread

theorem multilineBasic?_escaped (other : c ≠ '"') (found : multilineBasic? false tail = some (text, rest)) :
    multilineBasic? false (escaped c ++ tail) = some (c :: text, rest) := by
  rcases escaped_cases c with ⟨itself, noBackslash, visible⟩ | ⟨letters, written, escapes⟩
  · obtain ⟨noReturn, plain⟩ := plain_of_visible visible
    have unclosed : closing? '"' (c :: tail) = none := closing?_eq_none (Nat.zero_le 2) other
    rw [itself, List.singleton_append, multilineBasic?.eq_def]
    simp [noBackslash, unclosed, noReturn, plain, found]
  · rw [written]
    exact multilineBasic?_escape escapes found

/-- The text so far may have ended in quotes that were written as they are. -/
theorem multilineBasic?_written (few : quotes ≤ 2) (apart : rest.head? ≠ some '"') :
    multilineBasic? false
        (List.replicate quotes '"' ++ (escapedLines quotes chars ++ (threeQuotes '"' ++ rest))) =
      some (List.replicate quotes '"' ++ chars, rest) := by
  induction chars generalizing quotes with
  | nil =>
    rw [escapedLines, List.nil_append, List.append_nil]
    exact multilineBasic?_takesQuotes.closes (closing?_quotes few apart)
  | cons c chars ih =>
    have after := ih (Nat.zero_le 2)
    rw [escapedLines]
    split
    next isQuote =>
      subst isQuote
      split
      next full =>
        have escapes : Escapes ['"'] '"' := ⟨fun _ => rfl, fun _ => rfl⟩
        have read := multilineBasic?_escape escapes after
        exact multilineBasic?_takesQuotes.run few (by decide) read
      next more =>
        have shifted := @ih (quotes + 1) (by omega)
        rw [List.replicate_succ', List.append_assoc, List.append_assoc] at shifted
        exact shifted
    next other =>
      have read := multilineBasic?_escaped other after
      rw [List.append_assoc]
      rcases escaped_cases c with ⟨itself, _⟩ | ⟨letters, written, _⟩
      · rw [itself] at read ⊢
        exact multilineBasic?_takesQuotes.run few other read
      · rw [written] at read ⊢
        exact multilineBasic?_takesQuotes.run few (by decide) read

theorem multilineLiteral?_visible (other : c ≠ '\'') (visible : needsEscape c = false)
    (found : multilineLiteral? tail = some (text, rest)) :
    multilineLiteral? (c :: tail) = some (c :: text, rest) := by
  obtain ⟨noReturn, plain⟩ := plain_of_visible visible
  have unclosed : closing? '\'' (c :: tail) = none := closing?_eq_none (Nat.zero_le 2) other
  rw [multilineLiteral?, unclosed]
  simp [noReturn, plain, found]

theorem le_longestRunFrom (mark : Char) (current : Nat) (text : List Char) :
    current ≤ longestRunFrom mark current text := by
  induction text generalizing current with
  | nil => exact Nat.le_refl current
  | cons c rest ih =>
    rw [longestRunFrom]
    split
    · exact Nat.le_of_succ_le (ih (current + 1))
    · exact Nat.le_max_left _ _

theorem multilineLiteral?_written (visible : ∀ c ∈ chars, needsEscape c = false)
    (few : longestRunFrom '\'' quotes chars ≤ 2) (apart : rest.head? ≠ some '\'') :
    multilineLiteral? (List.replicate quotes '\'' ++ (chars ++ (threeQuotes '\'' ++ rest))) =
      some (List.replicate quotes '\'' ++ chars, rest) := by
  have fewBefore : quotes ≤ 2 := Nat.le_trans (le_longestRunFrom _ _ _) few
  induction chars generalizing quotes with
  | nil =>
    rw [List.nil_append, List.append_nil]
    exact multilineLiteral?_takesQuotes.closes (closing?_quotes fewBefore apart)
  | cons c chars ih =>
    obtain ⟨first, others⟩ := List.forall_mem_cons.mp visible
    rw [longestRunFrom] at few
    split at few
    next isQuote =>
      subst isQuote
      have shifted := @ih (quotes + 1) others few (Nat.le_trans (le_longestRunFrom _ _ _) few)
      rw [List.replicate_succ', List.append_assoc, List.append_assoc] at shifted
      exact shifted
    next other =>
      have after := @ih 0 others (Nat.le_trans (Nat.le_max_right _ _) few) (Nat.zero_le 2)
      apply multilineLiteral?_takesQuotes.run fewBefore other
      exact multilineLiteral?_visible other first after

end ThreeQuotes

section Forms

/-- The texts that a form without escapes can hold. A literal on one line must not be taken for the start of
one over several lines. -/
def Form.CanHold (chars : List Char) : Form → Prop
  | .basic | .multilineBasic => True
  | .literal => chars ≠ [] ∧ ∀ c ∈ chars, isPlain c = true ∧ c ≠ '\''
  | .multilineLiteral => (∀ c ∈ chars, needsEscape c = false) ∧ longestRun '\'' chars ≤ 2

theorem Form.of_canHold (chars : List Char) : (Form.of chars).CanHold chars := by
  unfold Form.of
  split
  next => split <;> trivial
  next visible =>
    simp only [List.any_eq_true, not_exists, not_and, Bool.not_eq_true] at visible
    split
    next => trivial
    next marked =>
      split
      next unquoted =>
        simp only [Bool.and_eq_true, Bool.not_eq_true', List.contains_eq_mem, decide_eq_false_iff_not]
          at unquoted
        refine ⟨fun empty => marked (by simp [empty]), ?_⟩
        intro c member
        have sameLine : c ≠ '\n' := fun same => unquoted.2 (same ▸ member)
        have plain := (plain_of_visible (visible c member)).2.resolve_left sameLine
        exact ⟨plain, fun same => unquoted.1 (same ▸ member)⟩
      next =>
        split
        next => trivial
        next =>
          split
          next few => exact ⟨visible, few⟩
          next => split <;> trivial

theorem afterFirstBreak_leadingBreak (start : '\n' ∉ chars → ∀ c ∈ text.head?, c ≠ '\n' ∧ c ≠ '\r') :
    afterFirstBreak (leadingBreak chars ++ text) = text := by
  by_cases broken : '\n' ∈ chars
  · simp [leadingBreak, broken, afterFirstBreak, afterBreak?]
  · have first := start broken
    have unbroken : afterBreak? text = none := by
      unfold afterBreak?
      split
      next => exact absurd rfl (first '\n' rfl).1
      next => exact absurd rfl (first '\r' rfl).2
      next => rfl
    simp [leadingBreak, broken, afterFirstBreak, unbroken]

/-- What may come after a string. -/
def Unquoted (rest : List Char) : Prop :=
  rest.head? ≠ some '"' ∧ rest.head? ≠ some '\''

theorem escapedOnLine_head (c : Char) : ∃ first more, escapedOnLine c = first :: more ∧ first ≠ '"' := by
  rw [escapedOnLine]
  split
  next => exact ⟨_, _, rfl, by decide⟩
  next isQuote =>
    split
    next => exact ⟨_, _, rfl, by decide⟩
    next =>
      rcases escaped_cases c with ⟨itself, _⟩ | ⟨letters, written, _⟩
      · exact ⟨c, [], itself, isQuote⟩
      · exact ⟨'\\', letters, written, by decide⟩

theorem string?_basic (chars : List Char) (apart : Unquoted rest) :
    string? ('"' :: (chars.flatMap escapedOnLine ++ '"' :: rest)) = some (.ofList chars, rest) := by
  rw [string?, basic?_written]
  · rfl
  -- A second and a third quote would have to follow at once.
  · intro more same
    cases chars with
    | nil => exact apart.1 (congrArg List.head? (List.cons.inj same).2)
    | cons c chars =>
      obtain ⟨first, others, written, noQuote⟩ := escapedOnLine_head c
      rw [List.flatMap_cons, written] at same
      exact noQuote (List.cons.inj same).1

theorem string?_literal (held : Form.literal.CanHold chars) (rest : List Char) :
    string? ('\'' :: (chars ++ '\'' :: rest)) = some (.ofList chars, rest) := by
  obtain ⟨nonempty, plain⟩ := held
  rw [string?, literal?_written plain]
  · rfl
  · intro more same
    obtain ⟨c, others, rfl⟩ := List.exists_cons_of_ne_nil nonempty
    exact (plain c List.mem_cons_self).2 (List.cons.inj same).1

theorem string?_multilineBasic (chars : List Char) (apart : Unquoted rest) :
    string? ('"' :: '"' :: '"' :: (leadingBreak chars ++ (escapedLines 0 chars ++ (threeQuotes '"' ++ rest)))) =
      some (.ofList chars, rest) := by
  have start : '\n' ∉ chars →
      ∀ c ∈ (escapedLines 0 chars ++ (threeQuotes '"' ++ rest)).head?, c ≠ '\n' ∧ c ≠ '\r' := by
    intro unbroken
    cases chars with
    | nil => simp [escapedLines, threeQuotes]
    | cons c chars =>
      rw [escapedLines]
      split
      next => simp
      next =>
        rcases escaped_cases c with ⟨itself, _, visible⟩ | ⟨letters, written, _⟩
        · have noBreak : c ≠ '\n' := fun same => unbroken (same ▸ List.mem_cons_self)
          simp [itself, noBreak, plain_of_visible visible]
        · simp [written]
  have read : multilineBasic? false (escapedLines 0 chars ++ (threeQuotes '"' ++ rest)) = some (chars, rest) :=
    multilineBasic?_written (Nat.zero_le 2) apart.1
  rw [string?, afterFirstBreak_leadingBreak start, read]
  rfl

theorem string?_multilineLiteral (held : Form.multilineLiteral.CanHold chars) (apart : Unquoted rest) :
    string? ('\'' :: '\'' :: '\'' :: (leadingBreak chars ++ (chars ++ (threeQuotes '\'' ++ rest)))) =
      some (.ofList chars, rest) := by
  obtain ⟨visible, few⟩ := held
  have start : '\n' ∉ chars → ∀ c ∈ (chars ++ (threeQuotes '\'' ++ rest)).head?, c ≠ '\n' ∧ c ≠ '\r' := by
    intro unbroken
    cases chars with
    | nil => simp [threeQuotes]
    | cons c chars =>
      have noBreak : c ≠ '\n' := fun same => unbroken (same ▸ List.mem_cons_self)
      simp [noBreak, plain_of_visible (visible c List.mem_cons_self)]
  have read : multilineLiteral? (chars ++ (threeQuotes '\'' ++ rest)) = some (chars, rest) :=
    multilineLiteral?_written visible few apart.2
  rw [string?, afterFirstBreak_leadingBreak start, read]
  rfl

theorem string?_written (text : String) (apart : Unquoted rest) :
    string? ((written text).toList ++ rest) = some (text, rest) := by
  have held := Form.of_canHold text.toList
  cases picked : Form.of text.toList with
  | basic => simpa [written, picked] using string?_basic text.toList apart
  | literal =>
    rw [picked] at held
    simpa [written, picked] using string?_literal held rest
  | multilineBasic => simpa [written, picked, threeQuotes] using string?_multilineBasic text.toList apart
  | multilineLiteral =>
    rw [picked] at held
    simpa [written, picked, threeQuotes] using string?_multilineLiteral held apart

theorem written_head (text : String) :
    ∃ quote more, (written text).toList = quote :: more ∧ (quote = '"' ∨ quote = '\'') := by
  cases picked : Form.of text.toList <;> simp [written, picked, threeQuotes]

end Forms

end Scribe.Toml
