import Scribe.Data.Read
import Scribe.Json.Token

/-!
JSON documents: a data tree is turned into tokens and back. `compact` writes a tree without blanks,
`pretty` with one item per line and two blanks per level; `parse?` reads either.
-/

namespace Scribe.Json

mutual

/-- The tokens of a tree. A garbled part denotes nothing and is written as null. -/
def tokensOf : Data → List Token
  | .null | .garbled => [.null]
  | .bool value => [.bool value]
  | .natural value => [.natural value]
  | .number lexeme => [.number lexeme]
  | .string text => [.string text]
  | .list items => .openList :: (itemTokens items ++ [.closeList])
  | .record fields => .openRecord :: (fieldTokens fields ++ [.closeRecord])

def itemTokens : List Data → List Token
  | [] => []
  | [item] => tokensOf item
  | item :: next :: rest => tokensOf item ++ .comma :: itemTokens (next :: rest)

def fieldTokens : List (String × Data) → List Token
  | [] => []
  | [(name, value)] => .string name :: .colon :: tokensOf value
  | (name, value) :: next :: rest =>
    .string name :: .colon :: (tokensOf value ++ .comma :: fieldTokens (next :: rest))

end

def compact (data : Data) : String :=
  .ofList ((tokensOf data).flatMap Token.text)

def lineBreak (level : Nat) : List Char :=
  '\n' :: List.replicate (2 * level) ' '

/-- Lays tokens out with one item per line; an empty list or record stays on its line. -/
def layout : (level : Nat) → List Token → List Char
  | _, [] => []
  | level, .openList :: .closeList :: rest => '[' :: ']' :: layout level rest
  | level, .openRecord :: .closeRecord :: rest => '\x7b' :: '\x7d' :: layout level rest
  | level, .openList :: rest => '[' :: (lineBreak (level + 1) ++ layout (level + 1) rest)
  | level, .openRecord :: rest => '\x7b' :: (lineBreak (level + 1) ++ layout (level + 1) rest)
  | level, .closeList :: rest => lineBreak (level - 1) ++ ']' :: layout (level - 1) rest
  | level, .closeRecord :: rest => lineBreak (level - 1) ++ '\x7d' :: layout (level - 1) rest
  | level, .comma :: rest => ',' :: (lineBreak level ++ layout level rest)
  | level, .colon :: rest => ':' :: ' ' :: layout level rest
  | level, token :: rest => token.text ++ layout level rest

def pretty (data : Data) : String :=
  .ofList (layout 0 (tokensOf data))

/-- A record with a garbled field name can be skipped but not read. -/
def recordOf (fields : List (Option String × Data)) : Data :=
  match fields.mapM fun (name, value) => name.map (·, value) with
  | some fields => .record fields
  | none => .garbled

def fieldName? : List Token → Option (Option String × List Token)
  | .string name :: .colon :: rest => some (some name, rest)
  | .garbled :: .colon :: rest => some (none, rest)
  | _ => none

mutual

def value? : (rounds : Nat) → List Token → Option (Data × List Token)
  | 0, _ => none
  | rounds + 1, tokens =>
    match tokens with
    | .null :: rest => some (.null, rest)
    | .bool value :: rest => some (.bool value, rest)
    | .natural value :: rest => some (.natural value, rest)
    | .number lexeme :: rest => some (.number lexeme, rest)
    | .string text :: rest => some (.string text, rest)
    | .garbled :: rest => some (.garbled, rest)
    | .openList :: .closeList :: rest => some (.list [], rest)
    | .openList :: rest => (items? rounds rest).map fun (items, rest) => (.list items, rest)
    | .openRecord :: .closeRecord :: rest => some (.record [], rest)
    | .openRecord :: rest => (fields? rounds rest).map fun (fields, rest) => (recordOf fields, rest)
    | _ => none

/-- One item or more, up to the end of their list. -/
def items? : (rounds : Nat) → List Token → Option (List Data × List Token)
  | 0, _ => none
  | rounds + 1, tokens =>
    match value? rounds tokens with
    | some (item, .closeList :: rest) => some ([item], rest)
    | some (item, .comma :: rest) =>
      (items? rounds rest).map fun (items, rest) => (item :: items, rest)
    | _ => none

/-- One field or more, up to the end of their record. -/
def fields? : (rounds : Nat) → List Token → Option (List (Option String × Data) × List Token)
  | 0, _ => none
  | rounds + 1, tokens =>
    match fieldName? tokens with
    | none => none
    | some (name, rest) =>
      match value? rounds rest with
      | some (value, .closeRecord :: rest) => some ([(name, value)], rest)
      | some (value, .comma :: rest) =>
        (fields? rounds rest).map fun (fields, rest) => ((name, value) :: fields, rest)
      | _ => none

end

/-- Reads a whole text. A value and a list of items that starts with it begin at the same token, so
two rounds per token are enough. -/
def parse? (text : String) : Option Data := do
  let tokens ← tokens? text
  match value? (2 * tokens.length + 1) tokens with
  | some (data, []) => some data
  | _ => none

/-- Reads a whole text as a value. Only what the reader enters counts for the room. -/
def decode? (read : Data.Reader α) (room : Nat) (text : String) : Option α :=
  (parse? text).bind (read room)

end Scribe.Json
