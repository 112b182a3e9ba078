/-!
The tokens of JSON text. Tokenizing drops the layout, so a compact and an indented text of the same
tree have the same tokens; `Token.text` writes one token back.
-/

namespace Scribe.Json

inductive Token where
  | openList
  | closeList
  | openRecord
  | closeRecord
  | comma
  | colon
  | null
  | bool (value : Bool)
  /-- Digits alone, without a leading zero. -/
  | natural (value : Nat)
  | number (lexeme : String)
  | string (text : String)
  /-- A string with half of a surrogate pair. -/
  | garbled
deriving DecidableEq, Repr

def isBlank (c : Char) : Bool :=
  c = ' ' || c = '\t' || c = '\n' || c = '\r'

def hexValue? (c : Char) : Option Nat :=
  if c.isDigit then some (c.toNat - '0'.toNat)
  else if 'a' ≤ c ∧ c ≤ 'f' then some (c.toNat - 'a'.toNat + 10)
  else if 'A' ≤ c ∧ c ≤ 'F' then some (c.toNat - 'A'.toNat + 10)
  else none

/-- The value of a run of hexadecimal digits. -/
def hexNumber? (digits : List Char) : Option Nat :=
  digits.foldlM (fun value digit => (hexValue? digit).map (16 * value + ·)) 0

/-- What a one-letter escape stands for. -/
def shortEscape? (c : Char) : Option Char :=
  if c = '"' ∨ c = '\\' ∨ c = '/' then some c
  else if c = 'b' then some '\x08'
  else if c = 'f' then some '\x0c'
  else if c = 'n' then some '\n'
  else if c = 'r' then some '\r'
  else if c = 't' then some '\t'
  else none

/-- A string literal holds characters and, through escapes, single UTF-16 surrogates. -/
inductive Piece where
  | char (value : Char)
  | surrogate (unit : Nat)

def Piece.ofUnit (unit : Nat) : Piece :=
  if 0xD800 ≤ unit ∧ unit < 0xE000 then .surrogate unit else .char (.ofNat unit)

/-- Joins surrogates into the characters they encode; there is no result if one has no partner. -/
def Piece.join? : List Piece → Option (List Char)
  | [] => some []
  | .char c :: rest => (join? rest).map (c :: ·)
  | .surrogate high :: .surrogate low :: rest =>
    if high < 0xDC00 ∧ 0xDC00 ≤ low then
      (join? rest).map (.ofNat (0x10000 + (high - 0xD800) * 0x400 + (low - 0xDC00)) :: ·)
    else none
  | .surrogate _ :: _ => none

/-- The pieces of a string literal up to its closing quote, and what follows the quote. -/
def pieces? : List Char → Option (List Piece × List Char)
  | [] => none
  | c :: rest =>
    if c = '"' then some ([], rest)
    else if c = '\\' then
      match rest with
      | [] => none
      | letter :: rest =>
        match shortEscape? letter with
        | some plain => (pieces? rest).map fun (found, rest) => (.char plain :: found, rest)
        | none =>
          if letter = 'u' then
            match rest with
            | a :: b :: c :: d :: rest =>
              match hexNumber? [a, b, c, d] with
              | some unit => (pieces? rest).map fun (found, rest) => (.ofUnit unit :: found, rest)
              | none => none
            | _ => none
          else none
    else if c < ' ' then none
    else (pieces? rest).map fun (found, rest) => (.char c :: found, rest)

/-- What follows an integer part: a zero, or digits that start with none. -/
def afterInteger? : List Char → Option (List Char)
  | [] => none
  | c :: rest =>
    if c = '0' then some rest
    else if c.isDigit then some (rest.dropWhile Char.isDigit)
    else none

/-- What follows one digit or more. -/
def afterDigits? : List Char → Option (List Char)
  | [] => none
  | c :: rest => if c.isDigit then some (rest.dropWhile Char.isDigit) else none

def afterFraction? : List Char → Option (List Char)
  | '.' :: rest => afterDigits? rest
  | rest => some rest

def afterExponent? : List Char → Option (List Char)
  | [] => some []
  | c :: rest =>
    if c = 'e' ∨ c = 'E' then
      match rest with
      | '+' :: rest | '-' :: rest => afterDigits? rest
      | rest => afterDigits? rest
    else some (c :: rest)

def isNumber (lexeme : List Char) : Bool :=
  let unsigned := match lexeme with
    | '-' :: rest => rest
    | rest => rest
  (afterInteger? unsigned >>= afterFraction? >>= afterExponent?) == some []

def isNumberChar (c : Char) : Bool :=
  c.isDigit || c = '-' || c = '+' || c = '.' || c = 'e' || c = 'E'

def Token.ofNumber? (lexeme : List Char) : Option Token :=
  if !isNumber lexeme then none
  else if lexeme.all Char.isDigit then some (.natural (Nat.ofDigitChars 10 lexeme 0))
  else some (.number (.ofList lexeme))

def Token.ofMark? (c : Char) : Option Token :=
  if c = '[' then some .openList
  else if c = ']' then some .closeList
  else if c = '\x7b' then some .openRecord
  else if c = '\x7d' then some .closeRecord
  else if c = ',' then some .comma
  else if c = ':' then some .colon
  else none

def Token.ofWord? (word : List Char) : Option Token :=
  if word = ['n', 'u', 'l', 'l'] then some .null
  else if word = ['t', 'r', 'u', 'e'] then some (.bool true)
  else if word = ['f', 'a', 'l', 's', 'e'] then some (.bool false)
  else none

def Token.ofPieces (pieces : List Piece) : Token :=
  match Piece.join? pieces with
  | some text => .string (.ofList text)
  | none => .garbled

/-- The first token of a text that starts with no blank, and the text after it. -/
def Token.first? : List Char → Option (Token × List Char)
  | [] => none
  | c :: rest =>
    match Token.ofMark? c with
    | some mark => some (mark, rest)
    | none =>
      if c = '"' then
        (pieces? rest).map fun (found, rest) => (.ofPieces found, rest)
      else if c = '-' ∨ c.isDigit then
        (Token.ofNumber? ((c :: rest).takeWhile isNumberChar)).map
          (·, (c :: rest).dropWhile isNumberChar)
      else
        (Token.ofWord? ((c :: rest).takeWhile Char.isAlpha)).map (·, (c :: rest).dropWhile Char.isAlpha)

/-- Each round drops one character at least, so as many rounds as characters are enough. -/
def tokensWithin : (rounds : Nat) → List Char → Option (List Token)
  | _, [] => some []
  | 0, _ :: _ => none
  | rounds + 1, c :: rest =>
    if isBlank c then tokensWithin rounds rest
    else do
      let (token, rest) ← Token.first? (c :: rest)
      return token :: (← tokensWithin rounds rest)

def tokens? (text : String) : Option (List Token) :=
  let chars := text.toList
  tokensWithin chars.length chars

/-- Quotes, backslashes and control characters are escaped, everything else stands for itself. -/
def escaped (c : Char) : List Char :=
  if c = '"' then ['\\', '"']
  else if c = '\\' then ['\\', '\\']
  else if c = '\x08' then ['\\', 'b']
  else if c = '\x0c' then ['\\', 'f']
  else if c = '\n' then ['\\', 'n']
  else if c = '\r' then ['\\', 'r']
  else if c = '\t' then ['\\', 't']
  else if c < ' ' then
    ['\\', 'u', '0', '0', Nat.digitChar (c.toNat / 16), Nat.digitChar (c.toNat % 16)]
  else [c]

def quoted (text : String) : List Char :=
  '"' :: (text.toList.flatMap escaped ++ ['"'])

def Token.text : Token → List Char
  | .openList => ['[']
  | .closeList => [']']
  | .openRecord => ['\x7b']
  | .closeRecord => ['\x7d']
  | .comma => [',']
  | .colon => [':']
  | .null | .garbled => ['n', 'u', 'l', 'l']
  | .bool true => ['t', 'r', 'u', 'e']
  | .bool false => ['f', 'a', 'l', 's', 'e']
  | .natural value => Nat.toDigits 10 value
  | .number lexeme => lexeme.toList
  | .string text => quoted text

end Scribe.Json
