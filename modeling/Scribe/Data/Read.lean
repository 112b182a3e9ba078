import Scribe.Data.Basic

/-!
Reading typed values out of data trees. A reader is told how many levels of lists and records it may
still enter, so a tree that is nested too deeply is refused wherever it is read, while parts that
nobody reads may be of any depth.
-/

namespace Scribe.Data

abbrev Reader (α : Type) := (room : Nat) → Data → Option α

def readBool : Reader Bool
  | _, .bool value => some value
  | _, _ => none

def readString : Reader String
  | _, .string text => some text
  | _, _ => none

def readUInt8 : Reader UInt8
  | _, .natural value => if value < UInt8.size then some (.ofNat value) else none
  | _, _ => none

def readUInt32 : Reader UInt32
  | _, .natural value => if value < UInt32.size then some (.ofNat value) else none
  | _, _ => none

def readUInt64 : Reader UInt64
  | _, .natural value => if value < UInt64.size then some (.ofNat value) else none
  | _, _ => none

/-- The items of a list, with the room that is left inside it. -/
def items? : (room : Nat) → Data → Option (List Data × Nat)
  | room + 1, .list items => some (items, room)
  | _, _ => none

def readList (item : Reader α) : Reader (List α)
  | room, data => do
    let (items, inner) ← data.items? room
    items.mapM (item inner)

/-- A choice is written as its name, or as a record of that one name with null. -/
def readChoice (choices : List (String × α)) : Reader α
  | _, .string name => choices.lookup name
  | _ + 1, .record [(name, .null)] => choices.lookup name
  | _, _ => none

/-- The fields of a record that its reader knows, each at most once. -/
structure Fields where
  room : Nat
  entries : List (String × Data)

/-- Keeps the known fields and refuses a repeated one; the others are skipped unread. -/
def Fields.ofRecord? (names : List String) (room : Nat) (fields : List (String × Data)) :
    Option Fields :=
  let known := fields.filter fun field => names.contains field.1
  if (known.map Prod.fst).Nodup then some ⟨room, known⟩ else none

/-- A record is written field by field, or as the list of exactly its values in order. -/
def readFields (names : List String) : Reader Fields
  | room + 1, .list items =>
    if items.length = names.length then some ⟨room, names.zip items⟩ else none
  | room + 1, .record fields => Fields.ofRecord? names room fields
  | _, _ => none

namespace Fields

def get? (fields : Fields) (name : String) : Option Data :=
  fields.entries.lookup name

def required (fields : Fields) (name : String) (read : Reader α) : Option α := do
  read fields.room (← fields.get? name)

/-- An optional field may be missing or null. -/
def optional (fields : Fields) (name : String) (read : Reader α) : Option (Option α) :=
  match fields.get? name with
  | none | some .null => some none
  | some data => (read fields.room data).map some

def withDefault (fields : Fields) (name : String) (default : α) (read : Reader α) : Option α :=
  match fields.get? name with
  | none => some default
  | some data => read fields.room data

end Fields

end Scribe.Data
