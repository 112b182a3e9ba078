import Scribe.Proofs.ContextOperations

/-! Operations that cannot tell whether mappings are recorded. Two contexts agree if they look alike to
everyone who asks neither for the records of the tracker nor whether it keeps any. An operation is blind if
from two such contexts it ends in the same way and leaves two such contexts again. -/

namespace Scribe

variable {ε α β : Type} {raise : Unregistered → ε}

/-- What can be seen of a context without asking the tracker for more than its depth. -/
structure View where
  naming : NamingSettings
  firstLine : UInt32
  service? : (kind : ServiceKind) → kind ≠ .tracker → Option kind.Service
  depth? : Option Nat

def Context.view (context : Context) : View where
  naming := context.settings.naming
  firstLine := context.settings.mapping.firstLine
  service? kind _ := context.services.get? kind
  depth? := (context.services.get? .tracker).map Tracker.depth

/-- Two contexts with all the services of a run that look alike, the second one without records. -/
structure Agree (mapped unmapped : Context) : Prop where
  view : mapped.view = unmapped.view
  registered : ∀ kind ∈ [ServiceKind.naming, .instances, .writer], (unmapped.services.get? kind).isSome
  quiet : ∃ tracker, unmapped.services.get? .tracker = some tracker ∧ tracker.enabled = false ∧
    tracker.recorded = .empty

/-- Two ends of an operation that differ in their contexts at most, and these agree. -/
inductive SameEnd : EStateM.Result (Stop ε) Context α → EStateM.Result (Stop ε) Context α → Prop
  | ok {value : α} {mapped unmapped : Context} (agree : Agree mapped unmapped) :
      SameEnd (.ok value mapped) (.ok value unmapped)
  | error {stop : Stop ε} {mapped unmapped : Context} (agree : Agree mapped unmapped) :
      SameEnd (.error stop mapped) (.error stop unmapped)

def Blind (operation : Action ε Context α) : Prop :=
  ∀ mapped unmapped, Agree mapped unmapped → SameEnd (operation mapped) (operation unmapped)

theorem Context.view_eq_iff {mapped unmapped : Context} :
    mapped.view = unmapped.view ↔
      mapped.settings.naming = unmapped.settings.naming ∧
      mapped.settings.mapping.firstLine = unmapped.settings.mapping.firstLine ∧
      (∀ kind, kind ≠ .tracker → mapped.services.get? kind = unmapped.services.get? kind) ∧
      (mapped.services.get? .tracker).map Tracker.depth =
        (unmapped.services.get? .tracker).map Tracker.depth := by
  simp only [Context.view, View.mk.injEq, funext_iff]

namespace Agree

variable {mapped unmapped : Context} {kind : ServiceKind}

theorem service (agree : Agree mapped unmapped) (untracked : kind ≠ .tracker) :
    mapped.services.get? kind = unmapped.services.get? kind :=
  (Context.view_eq_iff.mp agree.view).2.2.1 kind untracked

theorem registered_both (agree : Agree mapped unmapped) (kind : ServiceKind)
    (member : kind ∈ [ServiceKind.naming, .instances, .writer]) :
    ∃ service, mapped.services.get? kind = some service ∧ unmapped.services.get? kind = some service := by
  have untracked : kind ≠ .tracker := by
    rintro rfl
    simp at member
  obtain ⟨service, held⟩ := Option.isSome_iff_exists.mp (agree.registered kind member)
  exact ⟨service, (agree.service untracked).trans held, held⟩

theorem trackers (agree : Agree mapped unmapped) :
    ∃ recording quiet, mapped.services.get? .tracker = some recording ∧
      unmapped.services.get? .tracker = some quiet ∧ recording.depth = quiet.depth ∧
      quiet.enabled = false ∧ quiet.recorded = .empty := by
  obtain ⟨quiet, held, disabled, empty⟩ := agree.quiet
  have sameDepth := (Context.view_eq_iff.mp agree.view).2.2.2
  rw [held, Option.map_some] at sameDepth
  obtain ⟨recording, tracked, depth⟩ := Option.map_eq_some_iff.mp sameDepth
  exact ⟨recording, quiet, tracked, held, depth, disabled, empty⟩

/-- A change to another service than the tracker is the same on both sides. -/
theorem modifyService (agree : Agree mapped unmapped) (untracked : kind ≠ .tracker)
    (change : kind.Service → kind.Service) :
    Agree (mapped.modifyService kind change) (unmapped.modifyService kind change) := by
  obtain ⟨naming, firstLine, services, depth⟩ := Context.view_eq_iff.mp agree.view
  refine ⟨Context.view_eq_iff.mpr ⟨naming, firstLine, ?_, ?_⟩, ?_, ?_⟩
  · intro other otherUntracked
    by_cases same : kind = other
    · subst same
      rw [Context.get?_modifyService_self, Context.get?_modifyService_self, services kind untracked]
    · rw [Context.get?_modifyService_other mapped change same,
        Context.get?_modifyService_other unmapped change same, services other otherUntracked]
  · rw [Context.get?_modifyService_other mapped change untracked,
      Context.get?_modifyService_other unmapped change untracked, depth]
  · intro other member
    by_cases same : kind = other
    · subst same
      rw [Context.get?_modifyService_self, Option.isSome_map]
      exact agree.registered kind member
    · rw [Context.get?_modifyService_other unmapped change same]
      exact agree.registered other member
  · rw [Context.get?_modifyService_other unmapped change untracked]
    exact agree.quiet

theorem modifyTracker (agree : Agree mapped unmapped) {recording quiet : Tracker}
    (tracked : mapped.services.get? .tracker = some recording)
    (silent : unmapped.services.get? .tracker = some quiet) {change silentChange : Tracker → Tracker}
    (depth : (change recording).depth = (silentChange quiet).depth)
    (disabled : (silentChange quiet).enabled = false) (empty : (silentChange quiet).recorded = .empty) :
    Agree (mapped.modifyService .tracker change) (unmapped.modifyService .tracker silentChange) := by
  obtain ⟨naming, firstLine, services, _⟩ := Context.view_eq_iff.mp agree.view
  refine ⟨Context.view_eq_iff.mpr ⟨naming, firstLine, ?_, ?_⟩, ?_, silentChange quiet, ?_, disabled, empty⟩
  · intro kind untracked
    rw [Context.get?_modifyService_other mapped change untracked.symm,
      Context.get?_modifyService_other unmapped silentChange untracked.symm, services kind untracked]
  · rw [Context.get?_modifyService_self, Context.get?_modifyService_self, tracked, silent]
    exact congrArg some depth
  · intro kind member
    have untracked : ServiceKind.tracker ≠ kind := by
      rintro rfl
      simp at member
    rw [Context.get?_modifyService_other unmapped silentChange untracked]
    exact agree.registered kind member
  · rw [Context.get?_modifyService_self, silent, Option.map_some]

/-- Both sides open a scope at the same place. -/
theorem enter (agree : Agree mapped unmapped) {recording quiet : Tracker}
    (tracked : mapped.services.get? .tracker = some recording)
    (silent : unmapped.services.get? .tracker = some quiet) (node : Node) (writer : Writer) :
    Agree (mapped.enter node recording writer) (unmapped.enter node quiet writer) := by
  obtain ⟨recording', quiet', tracked', silent', depth, disabled, empty⟩ := agree.trackers
  cases tracked.symm.trans tracked'
  cases silent.symm.trans silent'
  exact agree.modifyTracker tracked silent (congrArg (· + 1) depth) disabled empty

/-- Closing a scope adds a record on one side at most. -/
theorem closeScope (agree : Agree mapped unmapped) (scope silentScope : Scope) (node : Node) :
    Agree (mapped.closeScope scope node) (unmapped.closeScope silentScope node) := by
  obtain ⟨recording, quiet, tracked, silent, depth, disabled, empty⟩ := agree.trackers
  refine agree.modifyTracker tracked silent (congrArg (· - 1) depth) disabled ?_
  simp only [Tracker.closeScope, disabled, Bool.false_eq_true, if_false, empty]

end Agree

namespace SameEnd

variable {operation : Action ε Context α} {mapped unmapped : Context}

theorem outcome_eq (ended : SameEnd (operation mapped) (operation unmapped)) :
    outcome operation mapped = outcome operation unmapped := by
  unfold outcome
  generalize operation mapped = left at ended
  generalize operation unmapped = right at ended
  cases ended <;> rfl

theorem agree (ended : SameEnd (operation mapped) (operation unmapped)) :
    Agree (stateAfter operation mapped) (stateAfter operation unmapped) := by
  unfold stateAfter
  generalize operation mapped = left at ended
  generalize operation unmapped = right at ended
  cases ended <;> assumption

end SameEnd

namespace Blind

theorem pure (value : α) : Blind (Pure.pure value : Action ε Context α) :=
  fun _ _ agree => .ok agree

theorem fail (cause : ε) : Blind (Action.fail cause : Action ε Context α) :=
  fun _ _ agree => .error agree

theorem abort (message : String) : Blind (Action.abort message : Action ε Context α) :=
  fun _ _ agree => .error agree

theorem bind {operation : Action ε Context β} {next : β → Action ε Context α} (first : Blind operation)
    (rest : ∀ value, Blind (next value)) : Blind (operation >>= next) := by
  intro mapped unmapped agree
  have ended := first mapped unmapped agree
  simp only [Bind.bind, EStateM.bind]
  generalize operation mapped = left at ended
  generalize operation unmapped = right at ended
  cases ended with
  | ok agree => exact rest _ _ _ agree
  | error agree => exact .error agree

theorem settle {operation : Action ε Context α} (blind : Blind operation) :
    Blind (Action.settle operation) := by
  intro mapped unmapped agree
  have ended := blind mapped unmapped agree
  simp only [Action.settle]
  generalize operation mapped = left at ended
  generalize operation unmapped = right at ended
  cases ended with
  | ok agree => exact .ok agree
  | error agree => exact .ok agree

theorem perform {kind : ServiceKind} (untracked : kind ≠ .tracker)
    (operation : EStateM Overflow kind.Service α) :
    Blind (Context.perform Lens.self raise kind operation) := by
  intro mapped unmapped agree
  simp only [Context.perform, Registry.get, Lens.self, agree.service untracked]
  cases unmapped.services.get? kind with
  | none => exact .error agree
  | some service =>
    simp only
    cases operation service with
    | ok value after => exact .ok (agree.modifyService untracked _)
    | error cause after => exact .error (agree.modifyService untracked _)

theorem getOrMakeInstance (key : InstantiationKey) {make : Action ε Context Handle} (blind : Blind make) :
    Blind (Context.getOrMakeInstance Lens.self raise key make) := by
  intro mapped unmapped agree
  have untracked : ServiceKind.instances ≠ .tracker := by decide
  obtain ⟨memo, heldMapped, heldUnmapped⟩ := agree.registered_both .instances (by simp)
  cases stored : memo.find? key with
  | some handle =>
    rw [Context.getOrMakeInstance_found make heldMapped stored,
      Context.getOrMakeInstance_found make heldUnmapped stored]
    exact .ok (agree.modifyService untracked _)
  | none =>
    rw [Context.getOrMakeInstance_absent make heldMapped stored,
      Context.getOrMakeInstance_absent make heldUnmapped stored]
    have ended := blind _ _ (agree.modifyService untracked Memo.countMiss)
    generalize make (mapped.modifyService .instances Memo.countMiss) = left at ended
    generalize make (unmapped.modifyService .instances Memo.countMiss) = right at ended
    cases ended with
    | ok agree =>
      simp only [agree.service untracked]
      exact .ok (agree.modifyService untracked _)
    | error agree => exact .error agree

theorem withMapping (node : Node) {visit : Action ε Context α} (blind : Blind visit) :
    Blind (Context.withMapping Lens.self raise node visit) := by
  intro mapped unmapped agree
  obtain ⟨recording, quiet, tracked, silent, _⟩ := agree.trackers
  obtain ⟨writer, heldMapped, heldUnmapped⟩ := agree.registered_both .writer (by simp)
  rw [Context.withMapping_entered node visit tracked heldMapped,
    Context.withMapping_entered node visit silent heldUnmapped]
  have ended := blind _ _ (agree.enter tracked silent node writer)
  simp only [Action.leaving_eq]
  generalize visit (mapped.enter node recording writer) = left at ended
  generalize visit (unmapped.enter node quiet writer) = right at ended
  cases ended with
  | ok agree => exact .ok (agree.closeScope _ _ node)
  | error agree => exact .error (agree.closeScope _ _ node)

end Blind

end Scribe
