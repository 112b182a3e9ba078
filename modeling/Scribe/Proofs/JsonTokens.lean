import Scribe.Json.Document
import Scribe.Proofs.TextCuts

/-! Tokens read back from text. A text spells tokens if it has the text of each in turn, with blanks before
and after them as one likes, and tokenizing it gives these tokens again. A number with a sign, a fraction or
an exponent and a garbled string are not spelled. -/

namespace Scribe.Json

variable {token : Token} {tokens : List Token} {text : List Char}

/-- What cannot go on with the token before it. -/
def Stops (text : List Char) : Prop :=
  ∀ c ∈ text.head?, isNumberChar c = false ∧ c.isAlpha = false

theorem first?_word {c : Char} {letters : List Char} (stops : Stops text)
    (found : Token.ofWord? (c :: letters) = some token) (alphabetic : (c :: letters).all Char.isAlpha = true)
    (noMark : Token.ofMark? c = none) (noQuote : c ≠ '"') (noNumber : ¬ (c = '-' ∨ c.isDigit = true)) :
    Token.first? (c :: letters ++ text) = some (token, text) := by
  obtain ⟨taken, dropped⟩ := Text.span_of_stop (List.all_eq_true.mp alphabetic) (fun c head => (stops c head).2)
  rw [List.cons_append] at taken dropped ⊢
  simp only [Token.first?, noMark, if_neg noQuote, if_neg noNumber, taken, dropped, found, Option.map_some]

theorem isNumber_toDigits (value : Nat) : isNumber (Nat.toDigits 10 value) = true := by
  rcases Nat.eq_zero_or_pos value with rfl | positive
  · rfl
  · obtain ⟨c, rest, digits, nonzero⟩ := Text.toDigits_head value positive
    have digit : ∀ d ∈ c :: rest, d.isDigit = true := by
      rw [← digits]
      exact fun d => Nat.isDigit_of_mem_toDigits (by decide) (by decide)
    have ended : rest.dropWhile Char.isDigit = [] :=
      List.dropWhile_eq_nil_iff.mpr fun d member => digit d (List.mem_cons_of_mem c member)
    have unsigned : c ≠ '-' := Text.ne_of_test (digit c List.mem_cons_self) '-' rfl
    rw [digits]
    simp [isNumber, afterInteger?, nonzero, digit c, ended, unsigned, afterFraction?, afterExponent?]

theorem first?_natural (value : Nat) (stops : Stops text) :
    Token.first? (Nat.toDigits 10 value ++ text) = some (.natural value, text) := by
  have digits : ∀ c ∈ Nat.toDigits 10 value, c.isDigit = true :=
    fun c => Nat.isDigit_of_mem_toDigits (by decide) (by decide)
  have numeric : ∀ c ∈ Nat.toDigits 10 value, isNumberChar c = true := by
    intro c member
    simp [isNumberChar, digits c member]
  have read : Token.ofNumber? (Nat.toDigits 10 value) = some (.natural value) := by
    simp [Token.ofNumber?, isNumber_toDigits, List.all_eq_true.mpr digits, Nat.ofDigitChars_ten_toDigits]
  obtain ⟨taken, dropped⟩ := Text.span_of_stop numeric (fun c head => (stops c head).1)
  obtain ⟨c, rest, started⟩ := List.exists_cons_of_ne_nil (Nat.toDigits_ne_nil (n := value) (b := 10))
  have digit : c.isDigit = true := digits c (started ▸ List.mem_cons_self)
  have noMark : Token.ofMark? c = none := by
    simp [Token.ofMark?, Text.ne_of_test digit]
  have noQuote : c ≠ '"' := Text.ne_of_test digit '"' rfl
  rw [started] at read taken dropped ⊢
  rw [List.cons_append] at taken dropped ⊢
  simp [Token.first?, noMark, noQuote, digit, taken, dropped, read]

/-- The four digits of a control character. -/
theorem hexNumber?_control (value : Nat) (control : value < 32) :
    hexNumber? ['0', '0', Nat.digitChar (value / 16), Nat.digitChar (value % 16)] = some value := by
  have checked : ∀ value < 32,
      hexNumber? ['0', '0', Nat.digitChar (value / 16), Nat.digitChar (value % 16)] = some value := by
    decide
  exact checked value control

/-- A written character is read as itself, escaped or not. -/
theorem pieces?_escaped (c : Char) (rest : List Char) :
    pieces? (escaped c ++ rest) = (pieces? rest).map fun (found, rest) => (.char c :: found, rest) := by
  -- A character has an escape of one letter, or it is a control character, or it stands for itself.
  by_cases short : c ∈ ['"', '\\', '\x08', '\x0c', '\n', '\r', '\t']
  · simp only [List.mem_cons, List.not_mem_nil, or_false] at short
    rcases short with rfl | rfl | rfl | rfl | rfl | rfl | rfl <;> rfl
  · simp only [List.mem_cons, List.not_mem_nil, or_false, not_or] at short
    by_cases control : c < ' '
    · have bound : c.toNat < 32 := control
      have unit : Piece.ofUnit c.toNat = .char c := by
        rw [Piece.ofUnit, if_neg (by omega), Char.ofNat_toNat]
      simp [escaped, short, control, pieces?, shortEscape?, hexNumber?_control c.toNat bound, unit]
    · have written : escaped c = [c] := by simp [escaped, short, control]
      rw [written, List.singleton_append, pieces?.eq_def]
      simp [short, control]

theorem pieces?_quoted (chars : List Char) :
    pieces? (chars.flatMap escaped ++ '"' :: text) = some (chars.map .char, text) := by
  induction chars with
  | nil =>
    rw [List.flatMap_nil, List.nil_append, pieces?.eq_def]
    rfl
  | cons c chars ih =>
    rw [List.flatMap_cons, List.append_assoc, pieces?_escaped, ih]
    rfl

theorem join?_chars (chars : List Char) : Piece.join? (chars.map .char) = some chars := by
  induction chars with
  | nil => rfl
  | cons c chars ih =>
    rw [List.map_cons, Piece.join?, ih]
    rfl

theorem first?_string (value : String) (text : List Char) :
    Token.first? (quoted value ++ text) = some (.string value, text) := by
  have joined : Token.ofPieces (value.toList.map .char) = .string value := by
    rw [Token.ofPieces, join?_chars]
    exact congrArg Token.string String.ofList_toList
  rw [quoted, List.cons_append, List.append_assoc, List.singleton_append]
  simp [Token.first?, Token.ofMark?, pieces?_quoted, joined]

def Token.IsMark : Token → Prop
  | .openList | .closeList | .openRecord | .closeRecord | .comma | .colon => True
  | _ => False

/-- Tokens whose text says all there is to them. -/
def Token.IsPlain : Token → Prop
  | .number _ | .garbled => False
  | _ => True

theorem first?_text (plain : token.IsPlain) (apart : token.IsMark ∨ Stops text) :
    Token.first? (token.text ++ text) = some (token, text) := by
  cases token with
  | openList | closeList | openRecord | closeRecord | comma | colon => rfl
  | null => exact first?_word (apart.resolve_left id) rfl rfl rfl (by decide) (by decide)
  | bool value =>
    cases value with
    | false => exact first?_word (apart.resolve_left id) rfl rfl rfl (by decide) (by decide)
    | true => exact first?_word (apart.resolve_left id) rfl rfl rfl (by decide) (by decide)
  | natural value => exact first?_natural value (apart.resolve_left id)
  | string value => exact first?_string value text
  | number | garbled => exact plain.elim

/-- No token starts with a blank. -/
theorem text_head (plain : token.IsPlain) :
    ∃ c rest, token.text = c :: rest ∧ isBlank c = false := by
  cases token with
  | openList | closeList | openRecord | closeRecord | comma | colon | null => exact ⟨_, _, rfl, rfl⟩
  | bool value =>
    cases value with
    | false => exact ⟨_, _, rfl, rfl⟩
    | true => exact ⟨_, _, rfl, rfl⟩
  | natural value =>
    obtain ⟨c, rest, started⟩ := List.exists_cons_of_ne_nil (Nat.toDigits_ne_nil (n := value) (b := 10))
    refine ⟨c, rest, started, ?_⟩
    have digit : c.isDigit = true :=
      Nat.isDigit_of_mem_toDigits (by decide) (by decide) (started ▸ List.mem_cons_self)
    simp [isBlank, Text.ne_of_test digit]
  | string value => exact ⟨_, _, rfl, rfl⟩
  | number | garbled => exact plain.elim

/-- The texts of the tokens one after the other, with blanks between them. -/
inductive Spells : List Token → List Char → Prop
  | done : Spells [] []
  | blank {tokens : List Token} {text : List Char} {c : Char} (skipped : isBlank c = true)
      (rest : Spells tokens text) : Spells tokens (c :: text)
  | token {token : Token} {tokens : List Token} {text : List Char} (plain : token.IsPlain)
      (apart : token.IsMark ∨ Stops text) (rest : Spells tokens text) :
      Spells (token :: tokens) (token.text ++ text)

theorem Spells.tokensWithin (spells : Spells tokens text) (rounds : Nat) (enough : text.length ≤ rounds) :
    tokensWithin rounds text = some tokens := by
  induction spells generalizing rounds with
  | done => rw [Json.tokensWithin]
  | blank skipped _ ih =>
    obtain ⟨rounds, rfl⟩ := Nat.exists_eq_add_of_le' (Nat.one_le_of_lt enough)
    rw [Json.tokensWithin, if_pos skipped]
    exact ih rounds (Nat.le_of_succ_le_succ enough)
  | @token token tokens text plain apart _ ih =>
    obtain ⟨c, rest, started, visible⟩ := text_head plain
    have first := first?_text plain apart
    rw [started, List.cons_append] at first enough ⊢
    obtain ⟨rounds, rfl⟩ := Nat.exists_eq_add_of_le' (Nat.one_le_of_lt enough)
    have continued : text.length ≤ rounds := by
      simp only [List.length_cons, List.length_append] at enough
      omega
    rw [Json.tokensWithin, if_neg (by simp [visible]), first]
    simp [ih rounds continued]

theorem Spells.tokens? {text : String} (spells : Spells tokens text.toList) : tokens? text = some tokens :=
  spells.tokensWithin _ (Nat.le_refl _)

end Scribe.Json
