import Scribe.Toml.Line

/-!
TOML documents. A document is one table that its lines build up in order; each header moves the place
where assignments go.
-/

namespace Scribe.Toml

/-- The table so far, and the path of the last header. -/
structure Builder where
  root : Value
  place : List String

namespace Builder

def new : Builder where
  root := .emptyTable .header
  place := []

def add? (builder : Builder) : Line → Option Builder
  | .assignment path key value => do
    let root ← builder.root.changeAt .passed (·.assign path key value) builder.place
    return { builder with root }
  | .header path key => do
    let root ← builder.root.changeAt .passed (·.openTable key) path
    return ⟨root, path ++ [key]⟩
  | .element path key => do
    let root ← builder.root.changeAt .passed (·.openElement key) path
    return ⟨root, path ++ [key]⟩

end Builder

def ofLines? (lines : List Line) : Option Value :=
  (lines.foldlM Builder.add? Builder.new).map Builder.root

def parse? (text : String) : Option Data :=
  ((lines? text).bind ofLines?).map Value.toData

end Scribe.Toml
