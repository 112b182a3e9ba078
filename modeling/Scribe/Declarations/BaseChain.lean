import Scribe.Declarations.Index

/-!
Following base types. The chain of a declaration holds the declarations with a primary constructor
that one meets on the way from base to base; it ends at a declaration without one or without a base.
Coming back to a declaration already met is an error.
-/

namespace Scribe

inductive ResolveError where
  | unresolvedBase (declaration base : String)
  | ambiguousBase (declaration base : String)
  | cyclicBaseChain (declaration : String)
deriving DecidableEq, Repr

def ResolveError.message : ResolveError → String
  | .unresolvedBase declaration base =>
    s!"Base type '{base}' of '{declaration}' is not declared in the translated file"
  | .ambiguousBase declaration base =>
    s!"Base type '{base}' of '{declaration}' matches more than one declaration"
  | .cyclicBaseChain declaration => s!"Base type chain of '{declaration}' is cyclic"

namespace DeclarationIndex

/-- The declaration that a base type written at the given path means. -/
def resolveBase (index : DeclarationIndex) (path base : String) : Except ResolveError Entry :=
  match index.resolve (Path.container path.toList) base with
  | .ok entry => .ok entry
  | .error .missing => .error (.unresolvedBase path base)
  | .error .ambiguous => .error (.ambiguousBase path base)

/-- Follows the base written at `path`. Only numbers in `unvisited` may still be met. -/
def follow (index : DeclarationIndex) (name : String) (unvisited : List Nat) (path : String) :
    (base : Option String) → Except ResolveError (List Entry)
  | none => .ok []
  | some base =>
    match index.resolveBase path base with
    | .error cause => .error cause
    | .ok entry =>
      if !entry.declaration.hasPrimary then .ok []
      else if entry.number ∈ unvisited then
        (index.follow name (unvisited.erase entry.number) entry.path entry.declaration.base).map
          (entry :: ·)
      else .error (.cyclicBaseChain name)
termination_by unvisited.length
decreasing_by
  rename_i unseen
  have := List.length_pos_of_mem unseen
  rw [List.length_erase_of_mem unseen]
  omega

/-- Whose chain is asked for: a declaration of the tree by its number, or one given in full, which
is looked for in the tree. -/
inductive Subject where
  | listed (entry : Entry)
  | given (declaration : Declaration)

namespace Subject

def declaration : Subject → Declaration
  | .listed entry => entry.declaration
  | .given declaration => declaration

def entry? (index : DeclarationIndex) : Subject → Option Entry
  | .listed entry => some entry
  | .given declaration => index.locate? declaration

end Subject

/-- The chain of a declaration, nearest base first. A declaration that is not in the tree has its
name for a path. -/
def ancestors (index : DeclarationIndex) (subject : Subject) : Except ResolveError (List Entry) :=
  let declaration := subject.declaration
  let numbers := index.entries.map (·.number)
  match subject.entry? index with
  | some entry =>
    index.follow declaration.name (numbers.erase entry.number) entry.path declaration.base
  | none => index.follow declaration.name numbers declaration.name declaration.base

/-- The parameters of a primary constructor whose names no declaration of the chain uses. -/
def uniqueParameters (index : DeclarationIndex) (subject : Subject) :
    Except ResolveError (List Parameter) :=
  let declaration := subject.declaration
  if !declaration.hasPrimary then .ok []
  else do
    let chain ← index.ancestors subject
    let inherited := chain.flatMap fun entry => entry.declaration.parameters.map (·.name)
    return declaration.parameters.filter fun parameter => !inherited.contains parameter.name

end DeclarationIndex

end Scribe
