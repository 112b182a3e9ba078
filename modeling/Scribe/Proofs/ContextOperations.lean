import Scribe.Proofs.Exits
import Scribe.Proofs.RegisteredServices
import Scribe.Run.Context

/-! What each operation of a context does to the services. An operation on one service leaves the others
alone; a visit opens a scope, does what the visitor does and closes the scope once on every exit. -/

namespace Scribe.Context

variable {ε α : Type} {kind other : ServiceKind} {context : Context} {raise : Unregistered → ε}

theorem get?_modifyService_self (context : Context) (change : kind.Service → kind.Service) :
    (context.modifyService kind change).services.get? kind = (context.services.get? kind).map change :=
  Registry.get?_modify_self context.services kind change

theorem get?_modifyService_other (context : Context) (change : kind.Service → kind.Service)
    (different : kind ≠ other) :
    (context.modifyService kind change).services.get? other = context.services.get? other :=
  Registry.get?_modify_other context.services change different

theorem line?_modifyService (context : Context) (change : kind.Service → kind.Service)
    (different : kind ≠ .writer) : (context.modifyService kind change).line? = context.line? := by
  simp only [line?, get?_modifyService_other context change different]

theorem service_registered {service : kind.Service} (held : context.services.get? kind = some service) :
    Context.service Lens.self raise kind context = .ok service context := by
  simp only [Context.service, Registry.get, Lens.self, held]

theorem service_missing (missing : context.services.get? kind = none) :
    Context.service Lens.self raise kind context = .error (.failure (raise ⟨kind⟩)) context := by
  simp only [Context.service, Registry.get, Lens.self, missing]

theorem modifyService_of_missing (missing : context.services.get? kind = none)
    (change : kind.Service → kind.Service) : context.modifyService kind change = context := by
  simp only [modifyService, Registry.modify_of_missing missing]

theorem modifyService_congr {service : kind.Service} {first second : kind.Service → kind.Service}
    (held : context.services.get? kind = some service) (same : first service = second service) :
    context.modifyService kind first = context.modifyService kind second := by
  simp only [modifyService, Registry.modify_congr held same]

/-- Without the service nothing changes, and otherwise only the service does. -/
theorem stateAfter_perform (operation : EStateM Overflow kind.Service α) (context : Context) :
    stateAfter (perform Lens.self raise kind operation) context =
      context.modifyService kind (stateAfter operation) := by
  cases held : context.services.get? kind with
  | none =>
    rw [modifyService_of_missing held]
    simp only [stateAfter, perform, Registry.get, Lens.self, held]
  | some service =>
    have replaced : context.modifyService kind (stateAfter operation) =
        context.modifyService kind fun _ => stateAfter operation service := modifyService_congr held rfl
    rw [replaced]
    simp only [stateAfter, perform, Registry.get, Lens.self, held]
    cases operation service <;> rfl

theorem getOrMakeInstance_missing (key : InstantiationKey) (make : Action ε Context Handle)
    (missing : context.services.get? .instances = none) :
    getOrMakeInstance Lens.self raise key make context =
      .error (.failure (raise ⟨.instances⟩)) context := by
  simp only [getOrMakeInstance, bind, EStateM.bind, service_missing missing]

theorem getOrMakeInstance_found {memo : InstanceMemo} {key : InstantiationKey} {handle : Handle}
    (make : Action ε Context Handle) (held : context.services.get? .instances = some memo)
    (found : memo.find? key = some handle) :
    getOrMakeInstance Lens.self raise key make context =
      .ok handle (context.modifyService .instances Memo.countHit) := by
  simp only [getOrMakeInstance, bind, EStateM.bind, service_registered held]
  simp only [Memo.getOrMake, instancesPart, Lens.self, held, Option.getD_some, found]

theorem getOrMakeInstance_absent {memo : InstanceMemo} {key : InstantiationKey}
    (make : Action ε Context Handle) (held : context.services.get? .instances = some memo)
    (absent : memo.find? key = none) :
    getOrMakeInstance Lens.self raise key make context =
      match make (context.modifyService .instances Memo.countMiss) with
      | .ok own after =>
        .ok ((((after.services.get? .instances).getD .empty).find? key).getD own)
          (after.modifyService .instances (·.store key own))
      | .error stop after => .error stop after := by
  simp only [getOrMakeInstance, bind, EStateM.bind, service_registered held]
  simp only [Memo.getOrMake, instancesPart, Lens.self, held, Option.getD_some, absent]
  cases make (context.modifyService .instances Memo.countMiss) <;> rfl

/-- The context in which a node is visited: its scope is open, and nothing else has changed. -/
def enter (node : Node) (tracker : Tracker) (writer : Writer) (context : Context) : Context :=
  context.modifyService .tracker fun _ => (tracker.openScope node.span.start writer.line).2

/-- The context after a scope was closed on the node where it was opened. -/
def closeScope (scope : Scope) (node : Node) (context : Context) : Context :=
  context.modifyService .tracker fun tracker =>
    tracker.closeScope scope node.span.finish (context.line?.getD scope.line)

theorem leaveScope_close (scope : Scope) (node : Node) :
    leaveScope ScopeGuard.close scope node = closeScope scope node := by
  funext context
  simp only [leaveScope, closeScope, ScopeGuard.close_opened]

theorem leaveScope_release (scope : Scope) (node : Node) :
    leaveScope ScopeGuard.release scope node = closeScope scope node := by
  funext context
  simp only [leaveScope, closeScope, ScopeGuard.release_opened]

theorem withMapping_entered {tracker : Tracker} {writer : Writer} (node : Node)
    (visit : Action ε Context α) (tracked : context.services.get? .tracker = some tracker)
    (written : context.services.get? .writer = some writer) :
    withMapping Lens.self raise node visit context =
      Action.leaving visit (closeScope (tracker.openScope node.span.start writer.line).1 node)
        (closeScope (tracker.openScope node.span.start writer.line).1 node)
        (context.enter node tracker writer) := by
  simp only [withMapping, bind, EStateM.bind, service_registered tracked, service_registered written,
    leaveScope_close, leaveScope_release]
  rfl

theorem stateAfter_withMapping {tracker : Tracker} {writer : Writer} (node : Node)
    (visit : Action ε Context α) (tracked : context.services.get? .tracker = some tracker)
    (written : context.services.get? .writer = some writer) :
    stateAfter (withMapping Lens.self raise node visit) context =
      closeScope (tracker.openScope node.span.start writer.line).1 node
        (stateAfter visit (context.enter node tracker writer)) := by
  simp only [stateAfter, withMapping_entered node visit tracked written]
  exact Action.stateAfter_leaving visit _ _

theorem outcome_withMapping {tracker : Tracker} {writer : Writer} (node : Node)
    (visit : Action ε Context α) (tracked : context.services.get? .tracker = some tracker)
    (written : context.services.get? .writer = some writer) :
    outcome (withMapping Lens.self raise node visit) context =
      outcome visit (context.enter node tracker writer) := by
  simp only [outcome, withMapping_entered node visit tracked written]
  exact Action.outcome_leaving visit _ _

theorem withMapping_untracked (node : Node) (visit : Action ε Context α)
    (missing : context.services.get? .tracker = none) :
    withMapping Lens.self raise node visit context =
      .error (.failure (raise ⟨.tracker⟩)) context := by
  simp only [withMapping, bind, EStateM.bind, service_missing missing]

theorem withMapping_unwritten {tracker : Tracker} (node : Node) (visit : Action ε Context α)
    (tracked : context.services.get? .tracker = some tracker)
    (missing : context.services.get? .writer = none) :
    withMapping Lens.self raise node visit context =
      .error (.failure (raise ⟨.writer⟩)) context := by
  simp only [withMapping, bind, EStateM.bind, service_registered tracked, service_missing missing]

end Scribe.Context
