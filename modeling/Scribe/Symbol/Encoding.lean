import Scribe.Data.Read
import Scribe.Symbol.Basic

/-!
Symbols as data trees.
-/

namespace Scribe

open Data

namespace TypeSymbol

mutual

def toData : TypeSymbol → Data
  | ⟨name, container, arguments⟩ =>
    .record [("name", .string name), ("namespace", .ofOption .string container),
      ("type_arguments", .list (argumentsToData arguments))]

def argumentsToData : List TypeSymbol → List Data
  | [] => []
  | type :: rest => toData type :: argumentsToData rest

end

/-- A type and its list of arguments take two levels of the room. -/
def read : Reader TypeSymbol
  | room + 2, data => do
    let fields ← readFields ["name", "namespace", "type_arguments"] (room + 2) data
    let name ← fields.required "name" readString
    let container ← fields.optional "namespace" readString
    let (arguments, _) ← (← fields.get? "type_arguments").items? (room + 1)
    return ⟨name, container, ← arguments.mapM (read room)⟩
  | _, _ => none

end TypeSymbol

namespace ParameterSymbol

def toData (parameter : ParameterSymbol) : Data :=
  .record [("name", .string parameter.name), ("parameter_type", parameter.type.toData)]

def read : Reader ParameterSymbol
  | room, data => do
    let fields ← readFields ["name", "parameter_type"] room data
    return ⟨← fields.required "name" readString, ← fields.required "parameter_type" TypeSymbol.read⟩

end ParameterSymbol

namespace MethodSymbol

def toData (method : MethodSymbol) : Data :=
  .record [("name", .string method.name), ("declaring_type", method.declaringType.toData),
    ("return_type", method.returnType.toData),
    ("parameters", .ofList ParameterSymbol.toData method.parameters),
    ("type_parameters", .ofList .string method.typeParameters)]

def read : Reader MethodSymbol
  | room, data => do
    let fields ← readFields
      ["name", "declaring_type", "return_type", "parameters", "type_parameters"] room data
    let name ← fields.required "name" readString
    let declaringType ← fields.required "declaring_type" TypeSymbol.read
    let returnType ← fields.required "return_type" TypeSymbol.read
    let parameters ← fields.required "parameters" (readList ParameterSymbol.read)
    return ⟨name, declaringType, returnType, parameters,
      ← fields.required "type_parameters" (readList readString)⟩

end MethodSymbol

end Scribe
