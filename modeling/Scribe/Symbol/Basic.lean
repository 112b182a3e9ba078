import Scribe.Symbol.Identifier
import Scribe.Text.Join

/-!
References to types and methods, with the texts made from them: the qualified name, the display with
type arguments, and an identifier that spells the type arguments out.
-/

namespace Scribe

structure TypeSymbol where
  name : String
  container : Option String
  arguments : List TypeSymbol

namespace TypeSymbol

def isGenericInstance (type : TypeSymbol) : Bool :=
  !type.arguments.isEmpty

/-- An empty container counts as none. -/
def qualifiedName (type : TypeSymbol) : String :=
  match type.container with
  | none => type.name
  | some container => if container = "" then type.name else container ++ "." ++ type.name

mutual

def display : TypeSymbol → String
  | ⟨name, container, arguments⟩ =>
    let qualified := qualifiedName ⟨name, container, arguments⟩
    match arguments with
    | [] => qualified
    | first :: rest => qualified ++ "<" ++ Text.join ", " (displays (first :: rest)) ++ ">"

def displays : List TypeSymbol → List String
  | [] => []
  | type :: rest => display type :: displays rest

end

mutual

def identifier : TypeSymbol → String
  | ⟨name, _, arguments⟩ => sanitize name ++ argumentIdentifiers arguments

/-- Each argument follows an underscore. -/
def argumentIdentifiers : List TypeSymbol → String
  | [] => ""
  | type :: rest => "_" ++ identifier type ++ argumentIdentifiers rest

end

end TypeSymbol

structure ParameterSymbol where
  name : String
  type : TypeSymbol

structure MethodSymbol where
  name : String
  declaringType : TypeSymbol
  returnType : TypeSymbol
  parameters : List ParameterSymbol
  typeParameters : List String

namespace MethodSymbol

def isGeneric (method : MethodSymbol) : Bool :=
  !method.typeParameters.isEmpty

/-- The dots that start a constructor's name are left out. -/
def identifier (method : MethodSymbol) : String :=
  sanitize (.ofList (method.name.toList.dropWhile (· = '.')))

end MethodSymbol

end Scribe
