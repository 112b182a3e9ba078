import Scribe.Data.Basic

/-!
TOML values and how tables grow. A table remembers what brought it about, since that decides who may
still add to it: a header opens its table once, a dotted key adds only to tables made by dotted keys,
and an inline table is complete as written.
-/

namespace Scribe.Toml

/-- What brought a table about. -/
inductive Origin where
  /-- The start of the document or a header of its own. -/
  | header
  /-- A longer header that passes through it. -/
  | passed
  /-- A dotted key that passes through it. -/
  | dotted
  /-- Braces. -/
  | inline
deriving DecidableEq, Repr

inductive Value where
  | string (text : String)
  | integer (value : Int)
  | float (lexeme : String)
  | boolean (value : Bool)
  | dateTime (lexeme : String)
  | array (items : List Value)
  /-- Tables under one repeated header, with the latest apart. -/
  | tables (earlier : List Value) (latest : Value)
  | table (origin : Origin) (fields : List (String × Value))

namespace Value

def emptyTable (origin : Origin) : Value :=
  .table origin []

/-- Replaces the value of a key or adds it at the end. -/
def setField (name : String) (value : Value) : List (String × Value) → List (String × Value)
  | [] => [(name, value)]
  | (first, old) :: rest =>
    if first = name then (name, value) :: rest else (first, old) :: setField name value rest

/-- Goes down a path of keys and changes the table at its end. Missing tables are made on the way,
with the given origin. A repeated header leads into its latest table. -/
def changeAt (making : Origin) (change : Value → Option Value) : List String → Value → Option Value
  | [], target => change target
  | key :: path, .table origin fields =>
    match fields.lookup key with
    | none => do
      let child ← changeAt making change path (emptyTable making)
      return .table origin (setField key child fields)
    | some (.table .inline _) => none
    | some (.table .header inner) =>
      if making = .dotted then none
      else do
        let child ← changeAt making change path (.table .header inner)
        return .table origin (setField key child fields)
    | some (.table found inner) => do
      let child ← changeAt making change path (.table found inner)
      return .table origin (setField key child fields)
    | some (.tables earlier latest) => do
      let child ← changeAt making change path latest
      return .table origin (setField key (.tables earlier child) fields)
    | some _ => none
  | _ :: _, _ => none

/-- Adds a field that is not there yet. -/
def addField (key : String) (value : Value) : Value → Option Value
  | .table origin fields =>
    if (fields.lookup key).isSome then none else some (.table origin (fields ++ [(key, value)]))
  | _ => none

/-- A dotted key ends in a table that dotted keys made. -/
def addDotted (key : String) (value : Value) : Value → Option Value
  | .table .dotted fields => addField key value (.table .dotted fields)
  | _ => none

/-- Adds a value under a key with dots. -/
def assign (table : Value) (path : List String) (key : String) (value : Value) : Option Value :=
  match path with
  | [] => addField key value table
  | path => changeAt .dotted (addDotted key value) path table

/-- A header opens a table that is new, or that only longer headers have passed through. -/
def openTable (key : String) : Value → Option Value
  | .table origin fields =>
    match fields.lookup key with
    | none => some (.table origin (setField key (emptyTable .header) fields))
    | some (.table .passed inner) => some (.table origin (setField key (.table .header inner) fields))
    | some _ => none
  | _ => none

/-- A repeated header starts a new table after the earlier ones. -/
def openElement (key : String) : Value → Option Value
  | .table origin fields =>
    match fields.lookup key with
    | none => some (.table origin (setField key (.tables [] (emptyTable .header)) fields))
    | some (.tables earlier latest) =>
      some (.table origin (setField key (.tables (earlier ++ [latest]) (emptyTable .header)) fields))
    | some _ => none
  | _ => none

mutual

/-- The plain data of a value. A date-time is a record of its text. -/
def toData : Value → Data
  | .string text => .string text
  | .integer (.ofNat value) => .natural value
  | .integer (.negSucc value) => .number ("-" ++ toString (value + 1))
  | .float lexeme => .number lexeme
  | .boolean value => .bool value
  | .dateTime lexeme => .record [("date-time", .string lexeme)]
  | .array items => .list (itemsToData items)
  | .tables earlier latest => .list (itemsToData earlier ++ [toData latest])
  | .table _ fields => .record (fieldsToData fields)

def itemsToData : List Value → List Data
  | [] => []
  | item :: rest => toData item :: itemsToData rest

def fieldsToData : List (String × Value) → List (String × Data)
  | [] => []
  | (name, value) :: rest => (name, toData value) :: fieldsToData rest

end

end Value

end Scribe.Toml
