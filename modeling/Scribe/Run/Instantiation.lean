import Scribe.Run.Context

/-!
Generic instances in the output. The first use of an instance writes a statement that makes it, after
the statements for those of its type arguments that are generic instances themselves; later uses
share its handle.
-/

namespace Scribe.Context

variable {ε σ : Type} (part : Lens σ Context) (raise : Unregistered → ε)

/-- The statement that makes an instance, and its name. -/
def declareInstance (type : TypeSymbol) : Action ε σ SyntheticName := do
  let name ← synthesize part raise type.identifier .genericInstance
  write part raise ("var " ++ name.name ++ " = " ++ (InstantiationKey.ofType type).display ++ ";")
  return name

mutual

/-- The handle of a generic instance. A failure that is given strikes when the instance is made, after
its statement has been written. -/
def instantiate (failure? : Option ε) : TypeSymbol → Action ε σ Handle
  | ⟨name, container, arguments⟩ =>
    getOrMakeInstance part raise (InstantiationKey.ofType ⟨name, container, arguments⟩) do
      instantiateArguments arguments
      let made ← declareInstance part raise ⟨name, container, arguments⟩
      match failure? with
      | some cause => Action.fail cause
      | none => return Handle.ofName made

def instantiateArguments : List TypeSymbol → Action ε σ Unit
  | [] => pure ()
  | type :: rest => do
    if type.isGenericInstance then
      let _ ← instantiate none type
    instantiateArguments rest

end

end Scribe.Context
