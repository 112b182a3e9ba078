import Scribe.Registry.Service
import Scribe.Source.Declaration

/-!
The context of a run: its settings and its services. Visitors work through the context and may fail
or abort at any point; whatever they did until then stays done, and the scope of every visit is
closed on the way out.
-/

namespace Scribe

structure Context where
  settings : Settings
  services : ServiceRegistry

namespace Context

/-- A context with fresh services made from its settings. -/
def new (settings : Settings) : Context where
  settings := settings
  services :=
    let naming := Registry.empty.register .naming (NameSupply.ofSettings settings.naming)
    let instances := naming.register .instances (Memo.empty : InstanceMemo)
    let tracker := instances.register .tracker (Tracker.new settings.mapping.enabled)
    tracker.register .writer (Writer.startingAt settings.mapping.firstLine)

variable {ε σ α : Type}

def modifyService (kind : ServiceKind) (change : kind.Service → kind.Service) (context : Context) :
    Context :=
  { context with services := context.services.modify kind change }

/-- The registered writer's line. -/
def line? (context : Context) : Option UInt32 :=
  (context.services.get? .writer).map Writer.line

/-- The registered service, or the failure that it is missing. -/
def service (part : Lens σ Context) (raise : Unregistered → ε) (kind : ServiceKind) :
    Action ε σ kind.Service :=
  fun state =>
    match (part.get state).services.get kind with
    | .ok service => .ok service state
    | .error missing => .error (.failure (raise missing)) state

/-- Runs an operation on a registered service; a counter that overflows aborts the run. -/
def perform (part : Lens σ Context) (raise : Unregistered → ε) (kind : ServiceKind)
    (operation : EStateM Overflow kind.Service α) : Action ε σ α :=
  fun state =>
    match (part.get state).services.get kind with
    | .error missing => .error (.failure (raise missing)) state
    | .ok service =>
      match operation service with
      | .ok value after => .ok value (part.modify (modifyService kind fun _ => after) state)
      | .error cause after =>
        .error (.abort cause.message) (part.modify (modifyService kind fun _ => after) state)

variable (part : Lens σ Context) (raise : Unregistered → ε)

def synthesize (hint : String) (kind : ElementKind) : Action ε σ SyntheticName :=
  perform part raise .naming (NameSupply.synthesize hint kind)

def write (statement : String) : Action ε σ Unit :=
  perform part raise .writer (Writer.write statement)

def writeAll (statements : List String) : Action ε σ Unit :=
  perform part raise .writer (Writer.writeAll statements)

def cloneReference (source : Handle) (overrides : Overrides) (method : MethodSymbol) :
    Action ε σ ClonedReference :=
  perform part raise .naming (source.clone overrides method)

/-- The memo of generic instances as a part of the state. -/
def instancesPart : Lens σ InstanceMemo where
  get state := ((part.get state).services.get? .instances).getD .empty
  modify change := part.modify (modifyService .instances change)

/-- The handle of a generic instance, made by `make` if there is none yet. -/
def getOrMakeInstance (key : InstantiationKey) (make : Action ε σ Handle) : Action ε σ Handle := do
  let _ ← service part raise .instances
  Memo.getOrMake (instancesPart part) key make

/-- Ends a scope on the node where it was opened, in one of the ways that its guard has. -/
def leaveScope (ending : ScopeGuard → Position → UInt32 → Tracker → Tracker) (scope : Scope)
    (node : Node) (context : Context) : Context :=
  context.modifyService .tracker fun tracker =>
    ending (.opened scope) node.span.finish (context.line?.getD scope.line) tracker

/-- Visits a node inside a scope of its own. A visit that returns closes the scope, with a failure too;
one that aborts leaves that to the guard. The tracker is asked for before the writer, and without
either nothing is visited. -/
def withMapping (node : Node) (visit : Action ε σ α) : Action ε σ α := do
  let tracker ← service part raise .tracker
  let writer ← service part raise .writer
  let (scope, tracker) := tracker.openScope node.span.start writer.line
  modify (part.modify (modifyService .tracker fun _ => tracker))
  Action.leaving visit (part.modify (leaveScope ScopeGuard.close scope node))
    (part.modify (leaveScope ScopeGuard.release scope node))

/-- Ends the run and hands out its mappings. -/
def intoMappings (context : Context) : Except Unregistered MappingList :=
  (context.services.get .tracker).map fun tracker => tracker.take.1

end Context

end Scribe
