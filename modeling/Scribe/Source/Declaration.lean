import Scribe.Source.Span

/-!
Declared types and the other pieces of source text that a visitor meets. A declaration may carry a
primary constructor, which is its own list of parameters, and the base type as it was written.
-/

namespace Scribe

structure Parameter where
  name : String
  typeName : String
  span : Span
deriving DecidableEq, Repr

inductive DeclarationKind where
  | classType
  | structType
  | interfaceType
  | recordClass
  | recordStruct
deriving DecidableEq, Repr

def DeclarationKind.text : DeclarationKind → String
  | .classType => "class"
  | .structType => "struct"
  | .interfaceType => "interface"
  | .recordClass => "record"
  | .recordStruct => "record struct"

structure Declaration where
  name : String
  kind : DeclarationKind
  /-- The parameters of the primary constructor, if there is one. -/
  primary : Option (List Parameter)
  /-- The base type as written. -/
  base : Option String
  members : List Declaration
  span : Span

namespace Declaration

mutual

def decEq (left right : Declaration) : Decidable (left = right) :=
  match left, right with
  | ⟨name, kind, primary, base, members, span⟩, ⟨name', kind', primary', base', members', span'⟩ =>
    match decEqMembers members members' with
    | isTrue sameMembers =>
      if same : name = name' ∧ kind = kind' ∧ primary = primary' ∧ base = base' ∧ span = span' then
        isTrue (by
          obtain ⟨rfl, rfl, rfl, rfl, rfl⟩ := same
          rw [sameMembers])
      else isFalse (by
        intro equal
        cases equal
        exact same ⟨rfl, rfl, rfl, rfl, rfl⟩)
    | isFalse differ => isFalse (by
        intro equal
        cases equal
        exact differ rfl)

def decEqMembers (left right : List Declaration) : Decidable (left = right) :=
  match left, right with
  | [], [] => isTrue rfl
  | [], _ :: _ => isFalse nofun
  | _ :: _, [] => isFalse nofun
  | first :: rest, first' :: rest' =>
    match decEq first first', decEqMembers rest rest' with
    | isTrue sameFirst, isTrue sameRest => isTrue (by rw [sameFirst, sameRest])
    | isFalse differ, _ => isFalse (by
        intro equal
        cases equal
        exact differ rfl)
    | _, isFalse differ => isFalse (by
        intro equal
        cases equal
        exact differ rfl)

end

instance : DecidableEq Declaration := decEq

def hasPrimary (declaration : Declaration) : Bool :=
  declaration.primary.isSome

def parameters (declaration : Declaration) : List Parameter :=
  declaration.primary.getD []

end Declaration

structure Statement where
  text : String
  span : Span
deriving DecidableEq, Repr

/-- The types declared at the top of one source file, in order. -/
structure SourceTree where
  declarations : List Declaration

/-- What a visitor can be sent to. A bare node is known by its span only. -/
inductive Node where
  | statement (value : Statement)
  | parameter (value : Parameter)
  | declaration (value : Declaration)
  | bare (span : Span)

namespace Node

def span : Node → Span
  | .statement value => value.span
  | .parameter value => value.span
  | .declaration value => value.span
  | .bare span => span

def kindText : Node → String
  | .statement _ => "statement"
  | .parameter _ => "parameter"
  | .declaration value => value.kind.text
  | .bare _ => "node"

end Node

end Scribe
