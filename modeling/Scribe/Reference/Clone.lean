import Scribe.Naming.Handle
import Scribe.Output.Writer
import Scribe.Symbol.Basic
import Scribe.Text.Join

/-!
Copies of method references. A copy is an expression that takes the name, the return type and four
properties from the reference it copies, each property with a value of its own where one is given.
A method with parameters or type parameters needs statements that copy those too, and a fresh name
for the copy.
-/

namespace Scribe

/-- The properties that a copy takes over, in the order in which they are written. -/
inductive ClonedProperty where
  | hasThis
  | explicitThis
  | declaringType
  | callingConvention
deriving DecidableEq, Repr

namespace ClonedProperty

def all : List ClonedProperty :=
  [.hasThis, .explicitThis, .declaringType, .callingConvention]

def name : ClonedProperty → String
  | .hasThis => "HasThis"
  | .explicitThis => "ExplicitThis"
  | .declaringType => "DeclaringType"
  | .callingConvention => "CallingConvention"

def ofName? (name : String) : Option ClonedProperty :=
  all.find? (·.name = name)

end ClonedProperty

/-- Values that replace those of the copied reference. -/
structure Overrides where
  hasThis : Option String := none
  explicitThis : Option String := none
  declaringType : Option String := none
  callingConvention : Option String := none
deriving DecidableEq, Repr

namespace Overrides

def get? (overrides : Overrides) : ClonedProperty → Option String
  | .hasThis => overrides.hasThis
  | .explicitThis => overrides.explicitThis
  | .declaringType => overrides.declaringType
  | .callingConvention => overrides.callingConvention

def set (overrides : Overrides) (property : ClonedProperty) (expression : String) : Overrides :=
  match property with
  | .hasThis => { overrides with hasThis := some expression }
  | .explicitThis => { overrides with explicitThis := some expression }
  | .declaringType => { overrides with declaringType := some expression }
  | .callingConvention => { overrides with callingConvention := some expression }

def isEmpty (overrides : Overrides) : Bool :=
  ClonedProperty.all.all fun property => (overrides.get? property).isNone

/-- Sets properties by name in order, and lists the names that are no property. -/
def ofNamed (named : List (String × String)) : Overrides × List String :=
  named.foldl
    (fun (overrides, unknown) (name, expression) =>
      match ClonedProperty.ofName? name with
      | some property => (overrides.set property expression, unknown)
      | none => (overrides, unknown ++ [name]))
    ({}, [])

end Overrides

structure ClonedReference where
  statements : List String
  handle : Handle
deriving DecidableEq, Repr

namespace ClonedReference

/-- The copy is an expression alone. -/
def isInline (clone : ClonedReference) : Bool :=
  clone.statements.isEmpty

/-- Writes the statements and gives the handle to use afterwards. -/
def emit (clone : ClonedReference) : EStateM Overflow Writer Handle := do
  Writer.writeAll clone.statements
  return clone.handle

end ClonedReference

namespace Handle

def initializer (source : Handle) (overrides : Overrides) (property : ClonedProperty) : String :=
  property.name ++ " = " ++ (overrides.get? property).getD (source.member property.name)

/-- The expression that makes the copy. -/
def construction (source : Handle) (overrides : Overrides) : String :=
  "new MethodReference(" ++ source.member "Name" ++ ", " ++ source.member "ReturnType" ++ ") \x7b " ++
    Text.join ", " (ClonedProperty.all.map (source.initializer overrides)) ++ " \x7d"

/-- The statement that gives the copy its name. -/
def declaration (source copy : Handle) (overrides : Overrides) : String :=
  "var " ++ copy.text ++ " = " ++ source.construction overrides ++ ";"

/-- A loop that goes through a list of the source and adds to the same list of the copy. -/
def copyLoop (source copy : Handle) (item list added : String) : String :=
  "foreach (var " ++ item ++ " in " ++ source.member list ++ ")\n\x7b\n    " ++ copy.member list ++
    ".Add(" ++ added ++ ");\n\x7d"

def parameterLoop (source copy : Handle) : String :=
  source.copyLoop copy "p" "Parameters" "new ParameterDefinition(p.Name, p.Attributes, p.ParameterType)"

def typeParameterLoop (source copy : Handle) : String :=
  source.copyLoop copy "gp" "GenericParameters" ("new GenericParameter(gp.Name, " ++ copy.text ++ ")")

/-- One loop for the parameters and one for the type parameters, whatever their number. -/
def copyLoops (source copy : Handle) (method : MethodSymbol) : List String :=
  (if method.parameters.isEmpty then [] else [source.parameterLoop copy]) ++
    (if method.isGeneric then [source.typeParameterLoop copy] else [])

/-- The statements that make a copy of the given name. -/
def cloneStatements (source copy : Handle) (overrides : Overrides) (method : MethodSymbol) :
    List String :=
  source.declaration copy overrides :: source.copyLoops copy method

def clone (source : Handle) (overrides : Overrides) (method : MethodSymbol) :
    EStateM Overflow NameSupply ClonedReference :=
  if method.parameters.isEmpty && !method.isGeneric then
    return ⟨[], ⟨source.construction overrides⟩⟩
  else do
    let copy := Handle.ofName (← NameSupply.synthesize method.identifier .memberReference)
    return ⟨source.cloneStatements copy overrides method, copy⟩

end Handle

end Scribe
