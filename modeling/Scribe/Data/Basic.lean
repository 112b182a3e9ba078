/-!
Plain data trees, the common meaning of the text formats. A record keeps its fields in the order of
the text, repeated names included; whoever reads the record decides what a repetition means.
-/

namespace Scribe

inductive Data where
  | null
  | bool (value : Bool)
  /-- A number written in digits alone. -/
  | natural (value : Nat)
  /-- A signed, fractional or scaled number, as written. -/
  | number (lexeme : String)
  | string (text : String)
  | list (items : List Data)
  | record (fields : List (String × Data))
  /-- Well-formed text that denotes no value, since a string in it holds half of a surrogate pair.
  It can be skipped but never read. -/
  | garbled

namespace Data

/-- A field that may be absent is written as null. -/
def ofOption (encode : α → Data) : Option α → Data
  | none => .null
  | some value => encode value

def ofList (encode : α → Data) (items : List α) : Data :=
  .list (items.map encode)

end Data

end Scribe
