import Scribe.Data.Read
import Scribe.Symbol.Basic
import Scribe.Text.Join

/-!
Keys of generic instances: a declaration together with the type arguments it is instantiated with.
-/

namespace Scribe

open Data

structure InstantiationKey where
  declaration : String
  arguments : List String
deriving DecidableEq, Hashable, Repr

namespace InstantiationKey

def ofType (type : TypeSymbol) : InstantiationKey where
  declaration := type.qualifiedName
  arguments := type.arguments.map TypeSymbol.display

def display (key : InstantiationKey) : String :=
  key.declaration ++ "<" ++ Text.join ", " key.arguments ++ ">"

def toData (key : InstantiationKey) : Data :=
  .record [("declaration", .string key.declaration),
    ("type_arguments", .ofList .string key.arguments)]

def read : Reader InstantiationKey
  | room, data => do
    let fields ← readFields ["declaration", "type_arguments"] room data
    return ⟨← fields.required "declaration" readString,
      ← fields.required "type_arguments" (readList readString)⟩

end InstantiationKey

end Scribe
