import Scribe.Declarations.Listing
import Scribe.Declarations.Path

/-!
Finding the declaration that a written name means. The name is looked up in the scope where it
stands and then outwards; if no scope knows it, the one path that agrees with it on their last names
is taken. Of several declarations with the same path the first counts.
-/

namespace Scribe

/-- A declaration with its path and its number in the listing. -/
structure Entry where
  number : Nat
  path : String
  declaration : Declaration

structure DeclarationIndex where
  entries : List Entry

inductive LookupError where
  | missing
  | ambiguous
deriving DecidableEq, Repr

namespace DeclarationIndex

def ofTree (tree : SourceTree) : DeclarationIndex where
  entries := tree.listing.zipIdx.map fun (located, number) =>
    ⟨number, located.path, located.declaration⟩

def size (index : DeclarationIndex) : Nat :=
  index.entries.length

def atPath? (index : DeclarationIndex) (path : String) : Option Entry :=
  index.entries.find? fun entry => entry.path = path

/-- The first scope outwards that holds the name. -/
def inScope? (index : DeclarationIndex) (scope name : List Char) : Option Entry :=
  (Path.scopes scope).findSome? fun scope =>
    index.atPath? (.ofList (Path.qualify scope name))

/-- The entries whose paths agree with the name, one for each path. -/
def agreeing (index : DeclarationIndex) (name : List Char) : List Entry :=
  let paths := (index.entries.map (·.path)).eraseDups
  (paths.filter fun path => Path.agree path.toList name).filterMap index.atPath?

def resolve (index : DeclarationIndex) (scope : List Char) (written : String) :
    Except LookupError Entry :=
  let name := Path.ofWritten written
  match index.inScope? scope name with
  | some entry => .ok entry
  | none =>
    match index.agreeing name with
    | [] => .error .missing
    | [entry] => .ok entry
    | _ => .error .ambiguous

/-- The declaration that a name means at the top of the file. -/
def get? (index : DeclarationIndex) (written : String) : Option Entry :=
  (index.resolve [] written).toOption

/-- The first entry whose declaration is the given one in every part. -/
def locate? (index : DeclarationIndex) (declaration : Declaration) : Option Entry :=
  index.entries.find? fun entry => entry.declaration = declaration

end DeclarationIndex

end Scribe
