import Mathlib.Data.List.Forall2
import Scribe.Proofs.BlindOperations
import Scribe.Proofs.VisitorPrograms

/-! Runs with and without mapping. A program may use every service but the tracker as it likes, make generic
instances, visit nodes, fail, abort and catch. Switching the mapping off changes nothing that it can see, at
no step of its run; all that is missing afterwards are the records. -/

namespace Scribe

variable {ε α β : Type}

/-- A program over a context that does not look at the records of the tracker. Writing a statement, asking
for a name, cloning a reference and looking an instance up are operations on single services. -/
inductive Program (ε : Type) : Type → Type 1 where
  | finish {α : Type} (value : α) : Program ε α
  | fail {α : Type} (cause : ε) : Program ε α
  | abort {α : Type} (message : String) : Program ε α
  | look {α : Type} (next : View → Program ε α) : Program ε α
  | use {α β : Type} (kind : ServiceKind) (untracked : kind ≠ .tracker)
      (operation : EStateM Overflow kind.Service β) (next : β → Program ε α) : Program ε α
  | instantiate {α : Type} (key : InstantiationKey) (make : Program ε Handle)
      (next : Handle → Program ε α) : Program ε α
  | visit {α β : Type} (node : Node) (body : Program ε β) (next : β → Program ε α) : Program ε α
  | settle {α β : Type} (body : Program ε β) (next : Except (Stop ε) β → Program ε α) : Program ε α

/-- The settings with mapping on or off. -/
def Settings.switched (settings : Settings) (enabled : Bool) : Settings where
  naming := settings.naming
  mapping := ⟨enabled, settings.mapping.firstLine⟩

namespace Program

def run (raise : Unregistered → ε) : {α : Type} → Program ε α → Action ε Context α
  | _, .finish value => pure value
  | _, .fail cause => Action.fail cause
  | _, .abort message => Action.abort message
  | _, .look next => fun context => (next context.view).run raise context
  | _, .use kind _ operation next => do
    let answer ← Context.perform Lens.self raise kind operation
    (next answer).run raise
  | _, .instantiate key make next => do
    let handle ← Context.getOrMakeInstance Lens.self raise key (make.run raise)
    (next handle).run raise
  | _, .visit node body next => do
    let value ← Context.withMapping Lens.self raise node (body.run raise)
    (next value).run raise
  | _, .settle body next => do
    let result ← Action.settle (body.run raise)
    (next result).run raise

/-- How an operation of a run ended, and the context that it left. -/
structure Step (ε : Type) where
  result : Σ α : Type, Except (Stop ε) α
  after : Context

/-- The step of an operation, and those of what follows if it ends with a value. -/
def stepThen (operation : Action ε Context β) (next : β → Context → List (Step ε)) (context : Context) :
    List (Step ε) :=
  match operation context with
  | .ok value after => ⟨⟨β, .ok value⟩, after⟩ :: next value after
  | .error stop after => [⟨⟨β, .error stop⟩, after⟩]

/-- The steps of a run in the order in which they ended. Those of a maker, a visit or a guarded part come
before the step of the whole. -/
def steps (raise : Unregistered → ε) : {α : Type} → Program ε α → Context → List (Step ε)
  | _, .finish _, _ => []
  | _, .fail _, _ => []
  | _, .abort _, _ => []
  | _, .look next, context => ⟨⟨View, .ok context.view⟩, context⟩ :: (next context.view).steps raise context
  | _, .use kind _ operation next, context =>
    stepThen (Context.perform Lens.self raise kind operation) (fun answer => (next answer).steps raise) context
  | _, .instantiate key make next, context =>
    (if context.makes key then make.steps raise (context.modifyService .instances Memo.countMiss)
      else []) ++
    stepThen (Context.getOrMakeInstance Lens.self raise key (make.run raise))
      (fun handle => (next handle).steps raise) context
  | _, .visit node body next, context =>
    (match context.services.get? .tracker, context.services.get? .writer with
      | some tracker, some writer => body.steps raise (context.enter node tracker writer)
      | _, _ => []) ++
    stepThen (Context.withMapping Lens.self raise node (body.run raise))
      (fun value => (next value).steps raise) context
  | _, .settle body next, context =>
    body.steps raise context ++
    stepThen (Action.settle (body.run raise)) (fun result => (next result).steps raise) context

/-- The same result, and contexts that agree. -/
def Step.Matches (mapped unmapped : Step ε) : Prop :=
  mapped.result = unmapped.result ∧ Agree mapped.after unmapped.after

theorem blind (raise : Unregistered → ε) (program : Program ε α) : Blind (program.run raise) := by
  induction program with
  | finish value => exact .pure value
  | fail cause => exact .fail cause
  | abort message => exact .abort message
  | look next ih =>
    intro mapped unmapped agree
    simp only [run, agree.view]
    exact ih _ _ _ agree
  | use kind untracked operation next ih => exact .bind (.perform untracked operation) ih
  | instantiate key make next ihMake ihNext => exact .bind (.getOrMakeInstance key ihMake) ihNext
  | visit node body next ihBody ihNext => exact .bind (.withMapping node ihBody) ihNext
  | settle body next ihBody ihNext => exact .bind (.settle ihBody) ihNext

theorem stepThen_matches {operation : Action ε Context β} {next : β → Context → List (Step ε)}
    {mapped unmapped : Context} (blind : Blind operation) (agree : Agree mapped unmapped)
    (rest : ∀ value {mapped unmapped : Context}, Agree mapped unmapped →
      List.Forall₂ Step.Matches (next value mapped) (next value unmapped)) :
    List.Forall₂ Step.Matches (stepThen operation next mapped) (stepThen operation next unmapped) := by
  have ended := blind mapped unmapped agree
  unfold stepThen
  generalize operation mapped = left at ended
  generalize operation unmapped = right at ended
  cases ended with
  | ok agree => exact .cons ⟨rfl, agree⟩ (rest _ agree)
  | error agree => exact .cons ⟨rfl, agree⟩ .nil

theorem steps_match (raise : Unregistered → ε) (program : Program ε α) {mapped unmapped : Context}
    (agree : Agree mapped unmapped) :
    List.Forall₂ Step.Matches (program.steps raise mapped) (program.steps raise unmapped) := by
  induction program generalizing mapped unmapped with
  | finish value => exact .nil
  | fail cause => exact .nil
  | abort message => exact .nil
  | look next ih =>
    simp only [steps, agree.view]
    exact .cons ⟨rfl, agree⟩ (ih _ agree)
  | use kind untracked operation next ih =>
    exact stepThen_matches (.perform untracked operation) agree ih
  | instantiate key make next ihMake ihNext =>
    have untracked : ServiceKind.instances ≠ .tracker := by decide
    apply List.rel_append
    · have together : mapped.makes key = unmapped.makes key := by
        simp only [Context.makes, agree.service untracked]
      rw [together]
      cases unmapped.makes key with
      | true => exact ihMake (agree.modifyService untracked _)
      | false => exact .nil
    · exact stepThen_matches (.getOrMakeInstance key (make.blind raise)) agree ihNext
  | visit node body next ihBody ihNext =>
    apply List.rel_append
    · obtain ⟨recording, quiet, tracked, silent, _⟩ := agree.trackers
      obtain ⟨writer, heldMapped, heldUnmapped⟩ := agree.registered_both .writer (by simp)
      simp only [tracked, silent, heldMapped, heldUnmapped]
      exact ihBody (agree.enter tracked silent node writer)
    · exact stepThen_matches (.withMapping node (body.blind raise)) agree ihNext
  | settle body next ihBody ihNext =>
    apply List.rel_append (ihBody agree)
    exact stepThen_matches (.settle (body.blind raise)) agree ihNext

theorem agree_new (settings : Settings) :
    Agree (.new (settings.switched true)) (.new (settings.switched false)) := by
  refine ⟨Context.view_eq_iff.mpr ⟨rfl, rfl, ?_, rfl⟩, ?_, .new false, rfl, rfl, rfl⟩
  · intro kind untracked
    cases kind with
    | tracker => exact absurd rfl untracked
    | naming | instances | writer | number | text => rfl
  · intro kind member
    cases kind with
    | naming | instances | writer => rfl
    | tracker | number | text => simp at member

/-- Two contexts made from settings that differ only in whether mappings are recorded, and any program that
does not look at the records. Step by step the runs have the same results and leave contexts that agree, so
that without mapping no record is there at any time. They end in the same way, with the same names used and
reserved, the same instances and statistics, the same output and line and the same number of open scopes. -/
theorem mapping_switch_changes_records_only (raise : Unregistered → ε) (program : Program ε α)
    (settings : Settings) :
    let mapped := Context.new (settings.switched true)
    let unmapped := Context.new (settings.switched false)
    List.Forall₂ Step.Matches (program.steps raise mapped) (program.steps raise unmapped) ∧
    outcome (program.run raise) mapped = outcome (program.run raise) unmapped ∧
    ∃ supply memo writer recording quiet,
      (∀ ended ∈ [stateAfter (program.run raise) mapped, stateAfter (program.run raise) unmapped],
        ended.services.get? .naming = some supply ∧ ended.services.get? .instances = some memo ∧
        ended.services.get? .writer = some writer) ∧
      (stateAfter (program.run raise) mapped).services.get? .tracker = some recording ∧
      (stateAfter (program.run raise) unmapped).services.get? .tracker = some quiet ∧
      recording.depth = quiet.depth ∧ quiet.recorded = .empty := by
  have started := agree_new settings
  have ended := program.blind raise _ _ started
  refine ⟨program.steps_match raise started, ended.outcome_eq, ?_⟩
  obtain ⟨supply, names, sameNames⟩ := ended.agree.registered_both .naming (by simp)
  obtain ⟨memo, instances, sameInstances⟩ := ended.agree.registered_both .instances (by simp)
  obtain ⟨writer, output, sameOutput⟩ := ended.agree.registered_both .writer (by simp)
  obtain ⟨recording, quiet, tracked, silent, depth, _, empty⟩ := ended.agree.trackers
  refine ⟨supply, memo, writer, recording, quiet, ?_, tracked, silent, depth, empty⟩
  intro context member
  rcases List.mem_pair.mp member with rfl | rfl
  · exact ⟨names, instances, output⟩
  · exact ⟨sameNames, sameInstances, sameOutput⟩

end Program

end Scribe
