import Scribe.Declarations.BaseChain
import Scribe.Mapping.Record
import Scribe.Registry.Service
import Scribe.Settings.File

/-!
Everything that can go wrong in a run, with its message. Faults of a text or a file that only its
reader could describe have no message.
-/

namespace Scribe

inductive Failure where
  | registry (missing : Unregistered)
  | resolve (cause : ResolveError)
  | settings (cause : SettingsFileError)
  | mapping (cause : MappingTextError)
  | generation (message : String)
deriving DecidableEq, Repr

namespace Failure

def message? : Failure → Option String
  | .registry missing => some ("Service registry error: " ++ missing.message)
  | .resolve cause => some ("Declaration resolution failed: " ++ cause.message)
  | .settings (.invalid cause) => some ("Configuration error: " ++ cause.message)
  | .settings _ => none
  | .mapping cause => cause.message?.map ("Mapping serialization failed: " ++ ·)
  | .generation message => some ("Code generation failed: " ++ message)

end Failure

end Scribe
