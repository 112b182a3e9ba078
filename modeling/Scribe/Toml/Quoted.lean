import Scribe.Json.Token

/-!
TOML strings. There are four written forms: one line or several, with escapes or without. `written`
picks the first form that needs no escapes, and escapes only if no form does without.
-/

namespace Scribe.Toml

/-- Characters that may stand in a comment or, quotes and backslashes apart, in a string. -/
def isPlain (c : Char) : Bool :=
  c = '\t' || (' ' ≤ c && c ≠ '\x7f')

def isBlank (c : Char) : Bool :=
  c = ' ' || c = '\t'

def shortEscape? (c : Char) : Option Char :=
  if c = '"' ∨ c = '\\' then some c
  else if c = 'b' then some '\x08'
  else if c = 'f' then some '\x0c'
  else if c = 'n' then some '\n'
  else if c = 'r' then some '\r'
  else if c = 't' then some '\t'
  else none

/-- The character with a number, unless it is half of a surrogate pair or out of range. -/
def charOf? (number : Nat) : Option Char :=
  if number.isValidChar then some (.ofNat number) else none

def hexChar? (digits : List Char) : Option Char :=
  (Json.hexNumber? digits).bind charOf?

/-- What an escape stands for, and the text after it. -/
def escape? : List Char → Option (Char × List Char)
  | [] => none
  | 'u' :: a :: b :: c :: d :: rest => (hexChar? [a, b, c, d]).map (·, rest)
  | 'U' :: a :: b :: c :: d :: e :: f :: g :: h :: rest =>
    (hexChar? [a, b, c, d, e, f, g, h]).map (·, rest)
  | c :: rest => (shortEscape? c).map (·, rest)

theorem escape?_shorter {text rest : List Char} {c : Char} (found : escape? text = some (c, rest)) :
    rest.length < text.length := by
  unfold escape? at found
  split at found <;> simp only [Option.map_eq_some_iff, Prod.mk.injEq, reduceCtorEq] at found
  all_goals
    obtain ⟨_, _, _, rfl⟩ := found
    simp only [List.length_cons]
    omega

/-- A string on one line with escapes, after its opening quote. -/
def basic? : List Char → Option (List Char × List Char)
  | [] => none
  | c :: rest =>
    if c = '"' then some ([], rest)
    else if c = '\\' then
      match _found : escape? rest with
      | some (plain, rest) => (basic? rest).map fun (text, rest) => (plain :: text, rest)
      | none => none
    else if isPlain c then (basic? rest).map fun (text, rest) => (c :: text, rest)
    else none
termination_by text => text.length
decreasing_by
  all_goals simp only [List.length_cons]
  · exact Nat.lt_succ_of_lt (escape?_shorter _found)
  · omega

/-- A string on one line without escapes, after its opening quote. -/
def literal? (text : List Char) : Option (List Char × List Char) :=
  let allowed := fun c => isPlain c && c ≠ '\''
  match text.dropWhile allowed with
  | '\'' :: rest => some (text.takeWhile allowed, rest)
  | _ => none

/-- A line break, written with or without a carriage return. -/
def afterBreak? : List Char → Option (List Char)
  | '\n' :: rest => some rest
  | '\r' :: '\n' :: rest => some rest
  | _ => none

/-- Whether only blanks stand before the next line break. -/
def endsLine (text : List Char) : Bool :=
  (afterBreak? (text.dropWhile isBlank)).isSome

/-- Three quotes in a row end a string; one or two more before them belong to it. -/
def closing? (quote : Char) : List Char → Option (List Char × List Char)
  | a :: b :: c :: rest =>
    if a = quote ∧ b = quote ∧ c = quote then
      match rest with
      | d :: e :: rest =>
        if d = quote ∧ e = quote then some ([quote, quote], rest)
        else if d = quote then some ([quote], e :: rest)
        else some ([], d :: e :: rest)
      | [d] => if d = quote then some ([quote], []) else some ([], [d])
      | [] => some ([], [])
    else none
  | _ => none

/-- A string over several lines with escapes, after its opening quotes. A backslash at the end of a
line drops the line break and all blanks and breaks after it, while `joining` lasts. -/
def multilineBasic? : (joining : Bool) → List Char → Option (List Char × List Char)
  | _, [] => none
  | joining, c :: rest =>
    if joining && (isBlank c || c = '\n') then multilineBasic? true rest
    else if joining && c = '\r' && rest.head? = some '\n' then multilineBasic? true rest
    else if c = '\\' then
      if endsLine rest then multilineBasic? true rest
      else
        match _found : escape? rest with
        | some (plain, rest) =>
          (multilineBasic? false rest).map fun (text, rest) => (plain :: text, rest)
        | none => none
    else
      match closing? '"' (c :: rest) with
      | some ended => some ended
      | none =>
        if c = '\r' then
          if rest.head? = some '\n' then multilineBasic? false rest else none
        else if c = '\n' || isPlain c then
          (multilineBasic? false rest).map fun (text, rest) => (c :: text, rest)
        else none
termination_by _ text => text.length
decreasing_by
  all_goals simp only [List.length_cons]
  all_goals first
    | omega
    | exact Nat.lt_succ_of_lt (escape?_shorter _found)

/-- A string over several lines without escapes, after its opening quotes. -/
def multilineLiteral? : List Char → Option (List Char × List Char)
  | [] => none
  | c :: rest =>
    match closing? '\'' (c :: rest) with
    | some ended => some ended
    | none =>
      if c = '\r' then
        if rest.head? = some '\n' then multilineLiteral? rest else none
      else if c = '\n' || isPlain c then
        (multilineLiteral? rest).map fun (text, rest) => (c :: text, rest)
      else none

/-- A line break right after the opening quotes does not count. -/
def afterFirstBreak (text : List Char) : List Char :=
  (afterBreak? text).getD text

/-- A string in any of its forms, from its opening quote on. -/
def string? (text : List Char) : Option (String × List Char) :=
  let read := match text with
    | '"' :: '"' :: '"' :: rest => multilineBasic? false (afterFirstBreak rest)
    | '"' :: rest => basic? rest
    | '\'' :: '\'' :: '\'' :: rest => multilineLiteral? (afterFirstBreak rest)
    | '\'' :: rest => literal? rest
    | _ => none
  read.map fun (chars, rest) => (.ofList chars, rest)

/-- Characters that only an escape can write. -/
def needsEscape (c : Char) : Bool :=
  (c < ' ' && c ≠ '\n' && c ≠ '\t') || c = '\x7f'

/-- The longest run of a character, where so many of it stand before the text. -/
def longestRunFrom (mark : Char) : (current : Nat) → List Char → Nat
  | current, [] => current
  | current, c :: rest =>
    if c = mark then longestRunFrom mark (current + 1) rest
    else max current (longestRunFrom mark 0 rest)

/-- The longest run of a character. -/
def longestRun (mark : Char) (text : List Char) : Nat :=
  longestRunFrom mark 0 text

inductive Form where
  | basic
  | literal
  | multilineBasic
  | multilineLiteral
deriving DecidableEq, Repr

def Form.of (text : List Char) : Form :=
  if text.any needsEscape then
    if text.contains '\n' then .multilineBasic else .basic
  else if !text.contains '\\' && !text.contains '"' && !text.contains '\n' then .basic
  else if !text.contains '\'' && !text.contains '\n' then .literal
  else if !text.contains '\\' && longestRun '"' text ≤ 2 then .multilineBasic
  else if longestRun '\'' text ≤ 2 then .multilineLiteral
  else if text.contains '\n' then .multilineBasic
  else .basic

def upperHex (digit : Nat) : Char :=
  (Nat.digitChar digit).toUpper

/-- A character inside quotes that allow escapes. -/
def escaped (c : Char) : List Char :=
  if c = '\x08' then ['\\', 'b']
  else if c = '\t' then ['\\', 't']
  else if c = '\x0c' then ['\\', 'f']
  else if c = '\r' then ['\\', 'r']
  else if c = '\\' then ['\\', '\\']
  else if needsEscape c then
    ['\\', 'u', '0', '0', upperHex (c.toNat / 16), upperHex (c.toNat % 16)]
  else [c]

def escapedOnLine (c : Char) : List Char :=
  if c = '"' then ['\\', '"']
  else if c = '\n' then ['\\', 'n']
  else escaped c

/-- Escapes the text of a string over several lines. Of three quotes in a row the third is escaped,
and counting starts again. -/
def escapedLines : (quotes : Nat) → List Char → List Char
  | _, [] => []
  | quotes, c :: rest =>
    if c = '"' then
      if quotes = 2 then '\\' :: '"' :: escapedLines 0 rest
      else '"' :: escapedLines (quotes + 1) rest
    else escaped c ++ escapedLines 0 rest

/-- A text with line breaks starts on the line after the opening quotes. -/
def leadingBreak (text : List Char) : List Char :=
  if text.contains '\n' then ['\n'] else []

def threeQuotes (quote : Char) : List Char :=
  [quote, quote, quote]

def written (text : String) : String :=
  let chars := text.toList
  .ofList <| match Form.of chars with
    | .basic => '"' :: (chars.flatMap escapedOnLine ++ ['"'])
    | .literal => '\'' :: (chars ++ ['\''])
    | .multilineBasic =>
      threeQuotes '"' ++ leadingBreak chars ++ escapedLines 0 chars ++ threeQuotes '"'
    | .multilineLiteral => threeQuotes '\'' ++ leadingBreak chars ++ chars ++ threeQuotes '\''

end Scribe.Toml
