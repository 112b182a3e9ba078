import Scribe.Toml.Quoted
import Scribe.Toml.Scalar

/-!
The lines of a TOML document: assignments and headers. Values may nest up to a limit, and so may the
names of a dotted key.
-/

namespace Scribe.Toml

inductive Line where
  | assignment (path : List String) (key : String) (value : Value)
  | header (path : List String) (key : String)
  | element (path : List String) (key : String)

/-- The levels of arrays and inline tables, and the names in a key, that a document may have. -/
def nestingLimit : Nat := 79

def isKeyChar (c : Char) : Bool :=
  c.isAlphanum || c = '_' || c = '-'

/-- One name of a key, bare or quoted. -/
def keyName? (text : List Char) : Option (String × List Char) :=
  match text with
  | '"' :: rest => (basic? rest).map fun (chars, rest) => (.ofList chars, rest)
  | '\'' :: rest => (literal? rest).map fun (chars, rest) => (.ofList chars, rest)
  | text =>
    let name := text.takeWhile isKeyChar
    if name = [] then none else some (.ofList name, text.dropWhile isKeyChar)

/-- A key of at most so many names with dots between them, and blanks around each. -/
def key? : (limit : Nat) → List Char → Option (List String × List Char)
  | 0, _ => none
  | limit + 1, text => do
    let (name, rest) ← keyName? (text.dropWhile isBlank)
    match rest.dropWhile isBlank with
    | '.' :: rest =>
      let (names, rest) ← key? limit rest
      return (name :: names, rest)
    | rest => return ([name], rest)

/-- A key split into the path to its last name and that name. -/
def splitKey? (names : List String) : Option (List String × String) :=
  names.getLast?.map (names.dropLast, ·)

/-- Drops blanks, line breaks and comments. A character that fits none of them ends the search, as does
one that no comment may hold. -/
def skipLayout : (inComment : Bool) → List Char → List Char
  | _, [] => []
  | inComment, c :: rest =>
    if c = '\n' then skipLayout false rest
    else if c = '\r' && rest.head? = some '\n' then skipLayout false rest
    else if inComment then if isPlain c then skipLayout true rest else c :: rest
    else if isBlank c then skipLayout false rest
    else if c = '#' then skipLayout true rest
    else c :: rest

/-- The items of an array, after its opening bracket. Each round reads one item. -/
def arrayItems? (item : List Char → Option (Value × List Char)) :
    (rounds : Nat) → List Char → Option (List Value × List Char)
  | 0, _ => none
  | rounds + 1, text =>
    match skipLayout false text with
    | ']' :: rest => some ([], rest)
    | text => do
      let (value, rest) ← item text
      match skipLayout false rest with
      | ',' :: rest =>
        let (values, rest) ← arrayItems? item rounds rest
        return (value :: values, rest)
      | ']' :: rest => some ([value], rest)
      | _ => none

/-- An assignment without what may follow its value. -/
def assignment? (value : List Char → Option (Value × List Char)) (text : List Char) :
    Option (List String × String × Value × List Char) := do
  let (names, rest) ← key? nestingLimit text
  let (path, key) ← splitKey? names
  let rest ← expect? '=' rest
  let (value, rest) ← value (rest.dropWhile isBlank)
  return (path, key, value, rest)

/-- The assignments of an inline table that has some, added to those before. -/
def inlineFields? (value : List Char → Option (Value × List Char)) :
    (rounds : Nat) → (table : Value) → List Char → Option (Value × List Char)
  | 0, _, _ => none
  | rounds + 1, table, text => do
    let (path, key, value', rest) ← assignment? value text
    let table ← table.assign path key value'
    match rest.dropWhile isBlank with
    | ',' :: rest => inlineFields? value rounds table rest
    | '\x7d' :: rest => some (table, rest)
    | _ => none

/-- A value, with so many levels left for arrays and inline tables. -/
def value? : (levels : Nat) → List Char → Option (Value × List Char)
  | levels, text =>
    match text with
    | '"' :: _ | '\'' :: _ => (string? text).map fun (string, rest) => (.string string, rest)
    | '[' :: rest =>
      match levels with
      | 0 => none
      | levels + 1 =>
        (arrayItems? (value? levels) (rest.length + 1) rest).map
          fun (items, rest) => (.array items, rest)
    | '\x7b' :: rest =>
      match levels with
      | 0 => none
      | levels + 1 =>
        match rest.dropWhile isBlank with
        | '\x7d' :: rest => some (.emptyTable .inline, rest)
        | fields => inlineFields? (value? levels) (fields.length + 1) (.emptyTable .inline) fields
    | text => scalar? text

/-- What follows a line: blanks and a comment may stand before its end. -/
def afterLine? (text : List Char) : Option (List Char) :=
  let text := text.dropWhile isBlank
  let text := match text with
    | '#' :: rest => rest.dropWhile isPlain
    | text => text
  match text with
  | [] => some []
  | text => afterBreak? text

/-- A header in so many brackets, after the opening ones. -/
def header? (brackets : Nat) (text : List Char) : Option (List String × String × List Char) := do
  let (names, rest) ← key? nestingLimit text
  let (path, key) ← splitKey? names
  if rest.take brackets = List.replicate brackets ']' then
    return (path, key, ← afterLine? (rest.drop brackets))
  else none

/-- One line that is neither empty nor a comment alone. -/
def line? : List Char → Option (Line × List Char)
  | '[' :: '[' :: rest =>
    (header? 2 rest).map fun (path, key, rest) => (.element path key, rest)
  | '[' :: rest =>
    (header? 1 rest).map fun (path, key, rest) => (.header path key, rest)
  | text => do
    let (path, key, value, rest) ← assignment? (value? nestingLimit) text
    return (.assignment path key value, ← afterLine? rest)

/-- Each round reads one line, so as many rounds as characters are enough. -/
def linesWithin : (rounds : Nat) → List Char → Option (List Line)
  | 0, text => if text.isEmpty then some [] else none
  | rounds + 1, text =>
    match text.dropWhile isBlank with
    | [] => some []
    | c :: rest =>
      if c = '\n' ∨ c = '\r' ∨ c = '#' then do
        linesWithin rounds (← afterLine? (c :: rest))
      else do
        let (line, rest) ← line? (c :: rest)
        return line :: (← linesWithin rounds rest)

/-- The lines of a text. A byte order mark at its start is skipped. -/
def lines? (text : String) : Option (List Line) :=
  let chars := match text.toList with
    | '\uFEFF' :: rest => rest
    | chars => chars
  linesWithin chars.length chars

end Scribe.Toml
