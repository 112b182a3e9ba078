import Scribe.Naming.Supply

/-!
Pieces of generated code that stand for something: a handle is an expression, a token a plain name.
Both are texts, and are written as texts.
-/

namespace Scribe

open Data

structure Handle where
  text : String
deriving DecidableEq, Hashable, Ord, Repr

namespace Handle

/-- The expression for a property of what the handle stands for. -/
def member (handle : Handle) (property : String) : String :=
  handle.text ++ "." ++ property

def ofName (synthetic : SyntheticName) : Handle where
  text := synthetic.name

def toData (handle : Handle) : Data :=
  .string handle.text

def read : Reader Handle
  | room, data => (readString room data).map Handle.mk

end Handle

structure NameToken where
  text : String
deriving DecidableEq, Ord, Repr

namespace NameToken

def ofName (synthetic : SyntheticName) : NameToken where
  text := synthetic.name

def toData (token : NameToken) : Data :=
  .string token.text

def read : Reader NameToken
  | room, data => (readString room data).map NameToken.mk

end NameToken

end Scribe
