import Scribe.Mapping.Tracker
import Scribe.Memo.Basic
import Scribe.Memo.Key
import Scribe.Naming.Supply
import Scribe.Output.Writer
import Scribe.Reference.Clone
import Scribe.Registry.Basic

/-!
The services that a run knows, and the names under which a registry lists them.
-/

namespace Scribe

inductive ServiceKind where
  | naming
  | instances
  | tracker
  | writer
  | number
  | text
deriving DecidableEq, Repr

abbrev InstanceMemo := Memo InstantiationKey Handle

namespace ServiceKind

abbrev Service : ServiceKind → Type
  | .naming => NameSupply
  | .instances => InstanceMemo
  | .tracker => Tracker
  | .writer => Writer
  | .number => UInt32
  | .text => String

def name : ServiceKind → String
  | .naming => "cecilifier_core::naming::NamingService"
  | .instances => "cecilifier_core::generic_cache::GenericInstantiationCache"
  | .tracker => "cecilifier_core::mapping::MappingTracker"
  | .writer => "cecilifier_core::output::StatementWriter"
  | .number => "u32"
  | .text => "alloc::string::String"

end ServiceKind

abbrev ServiceRegistry := Registry ServiceKind.Service

abbrev Unregistered := Registry.Missing ServiceKind

def Unregistered.message (missing : Unregistered) : String :=
  Registry.Missing.message ServiceKind.name missing

namespace ServiceRegistry

def quotedNames (registry : ServiceRegistry) : List String :=
  (registry.names ServiceKind.name).map fun name => "\"" ++ name ++ "\""

def describe (registry : ServiceRegistry) : String :=
  "ServiceRegistry \x7b services: [" ++ Text.join ", " registry.quotedNames ++ "] \x7d"

end ServiceRegistry

end Scribe
