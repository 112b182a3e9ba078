import Mathlib.Data.List.Nodup
import Scribe.Proofs.CopyStatements
import Scribe.Proofs.NameCharacters

/-! Copies of references made one after another. They share a supply of names with whatever else asks it
for names or reserves some, and one writer. A copy that needs statements gets a variable of its own, which
no other statement of any copy declares, and moves the writer on by a number of lines that depends on the
method only. -/

namespace Scribe

/-- A supply of names and a writer at work together. -/
structure Workshop where
  supply : NameSupply
  writer : Writer

namespace Workshop

def supplyPart : Lens Workshop NameSupply where
  get shop := shop.supply
  modify change shop := { shop with supply := change shop.supply }

def writerPart : Lens Workshop Writer where
  get shop := shop.writer
  modify change shop := { shop with writer := change shop.writer }

/-- Runs an operation on one part. -/
def within {τ α : Type} (part : Lens Workshop τ) (operation : EStateM Overflow τ α) :
    EStateM Overflow Workshop α :=
  fun shop =>
    match operation (part.get shop) with
    | .ok value after => .ok value (part.modify (fun _ => after) shop)
    | .error stop after => .error stop (part.modify (fun _ => after) shop)

theorem within_eq_ok {τ α : Type} {part : Lens Workshop τ} {operation : EStateM Overflow τ α}
    {shop final : Workshop} {value : α} :
    within part operation shop = .ok value final ↔
      ∃ after, operation (part.get shop) = .ok value after ∧ final = part.modify (fun _ => after) shop := by
  unfold within
  cases operation (part.get shop) with
  | ok found after =>
    constructor
    · rintro ⟨⟩
      exact ⟨after, rfl, rfl⟩
    · rintro ⟨_, ⟨⟩, rfl⟩
      rfl
  | error stop after => simp

inductive Call where
  | synthesize (text : String) (kind : ElementKind)
  | reserve (name : String)
  | clone (source : Handle) (overrides : Overrides) (method : MethodSymbol)

inductive Answer where
  | named (name : SyntheticName)
  | reserved
  | cloned (clone : ClonedReference)

namespace Answer

/-- The names that the supply made for the answer. A copy that is an expression alone needs none. -/
def names : Answer → List String
  | .named name => [name.name]
  | .reserved => []
  | .cloned clone => if clone.isInline then [] else [clone.handle.text]

def statements : Answer → List String
  | .cloned clone => clone.statements
  | _ => []

end Answer

/-- What a call gives back. The statements of a copy are written at once. -/
def perform : Call → EStateM Overflow Workshop Answer
  | .synthesize text kind => do
    let name ← within supplyPart (NameSupply.synthesize text kind)
    return .named name
  | .reserve name => do
    modify fun shop => { shop with supply := shop.supply.reserve name }
    return .reserved
  | .clone source overrides method => do
    let clone ← within supplyPart (source.clone overrides method)
    let _ ← within writerPart clone.emit
    return .cloned clone

/-- The answers to calls one after another. A counter that overflows ends the run. -/
def run (calls : List Call) : EStateM Overflow Workshop (List Answer) :=
  calls.mapM perform

variable {shop after final : Workshop} {call : Call} {answer : Answer} {calls : List Call}
  {answers : List Answer}

/-- Everything that a call without an overflow can do. -/
inductive Step : Workshop → Call → Answer → Workshop → Prop where
  | synthesize {shop : Workshop} {text : String} {kind : ElementKind} {name : SyntheticName}
      {supply : NameSupply} (made : NameSupply.synthesize text kind shop.supply = .ok name supply) :
      Step shop (.synthesize text kind) (.named name) { shop with supply }
  | reserve {shop : Workshop} {name : String} :
      Step shop (.reserve name) .reserved { shop with supply := shop.supply.reserve name }
  | inline {shop : Workshop} {source : Handle} {overrides : Overrides} {method : MethodSymbol}
      (bare : method.parameters = [] ∧ method.typeParameters = []) :
      Step shop (.clone source overrides method) (.cloned ⟨[], ⟨source.construction overrides⟩⟩) shop
  | clone {shop : Workshop} {source : Handle} {overrides : Overrides} {method : MethodSymbol}
      {name : SyntheticName} {supply : NameSupply} {writer : Writer}
      (needed : ¬ (method.parameters = [] ∧ method.typeParameters = []))
      (made : NameSupply.synthesize method.identifier .memberReference shop.supply = .ok name supply)
      (written : Writer.writeAll (source.cloneStatements (.ofName name) overrides method) shop.writer =
        .ok () writer) :
      Step shop (.clone source overrides method)
        (.cloned ⟨source.cloneStatements (.ofName name) overrides method, .ofName name⟩) ⟨supply, writer⟩

theorem Step.of_perform (performed : perform call shop = .ok answer after) : Step shop call answer after := by
  cases call with
  | synthesize text kind =>
    rw [perform, bind_eq_ok] at performed
    obtain ⟨name, _, ran, ⟨⟩⟩ := performed
    obtain ⟨supply, made, rfl⟩ := within_eq_ok.mp ran
    exact .synthesize made
  | reserve name =>
    cases performed
    exact .reserve
  | clone source overrides method =>
    rw [perform, bind_eq_ok] at performed
    obtain ⟨clone, _, first, performed⟩ := performed
    obtain ⟨handle, _, second, ⟨⟩⟩ := bind_eq_ok.mp performed
    obtain ⟨supply, cloned, rfl⟩ := within_eq_ok.mp first
    obtain ⟨writer, emitted, rfl⟩ := within_eq_ok.mp second
    have written := (ClonedReference.emit_eq_ok.mp emitted).1
    by_cases bare : method.parameters = [] ∧ method.typeParameters = []
    · rw [supplyPart, Handle.clone_of_bare bare] at cloned
      cases cloned
      cases written
      exact .inline bare
    · obtain ⟨name, made, rfl⟩ := (Handle.clone_of_needed bare).mp cloned
      exact .clone bare made written

theorem Step.perform (step : Step shop call answer after) : perform call shop = .ok answer after := by
  cases step with
  | @synthesize _ _ name supply made =>
    rw [Workshop.perform, bind_eq_ok]
    exact ⟨name, _, within_eq_ok.mpr ⟨supply, made, rfl⟩, rfl⟩
  | reserve => rfl
  | inline bare =>
    rw [Workshop.perform, bind_eq_ok]
    refine ⟨_, shop, within_eq_ok.mpr ⟨shop.supply, Handle.clone_of_bare bare, rfl⟩, ?_⟩
    rfl
  | @clone source overrides method name supply writer needed made written =>
    rw [Workshop.perform, bind_eq_ok]
    refine ⟨_, _, within_eq_ok.mpr ⟨supply, (Handle.clone_of_needed needed).mpr ⟨name, made, rfl⟩, rfl⟩, ?_⟩
    rw [bind_eq_ok]
    exact ⟨_, _, within_eq_ok.mpr ⟨writer, ClonedReference.emit_eq_ok.mpr ⟨written, rfl⟩, rfl⟩, rfl⟩

theorem run_cons {rest : List Call} :
    run (call :: rest) shop = .ok answers final ↔
      ∃ answer next others, Step shop call answer next ∧ run rest next = .ok others final ∧
        answers = answer :: others := by
  rw [run, List.mapM_cons, bind_eq_ok]
  constructor
  · rintro ⟨answer, next, performed, ran⟩
    obtain ⟨others, _, finished, ⟨⟩⟩ := bind_eq_ok.mp ran
    exact ⟨answer, next, others, .of_perform performed, finished, rfl⟩
  · rintro ⟨answer, next, others, step, finished, rfl⟩
    exact ⟨answer, next, step.perform, bind_eq_ok.mpr ⟨others, final, finished, rfl⟩⟩

theorem run_append {first second : List Call} :
    run (first ++ second) shop = .ok answers final ↔
      ∃ earlier middle later, run first shop = .ok earlier middle ∧ run second middle = .ok later final ∧
        answers = earlier ++ later := by
  rw [run, List.mapM_append, bind_eq_ok]
  constructor
  · rintro ⟨earlier, middle, reached, ran⟩
    obtain ⟨later, _, finished, ⟨⟩⟩ := bind_eq_ok.mp ran
    exact ⟨earlier, middle, later, reached, finished, rfl⟩
  · rintro ⟨earlier, middle, later, reached, finished, rfl⟩
    exact ⟨earlier, middle, reached, bind_eq_ok.mpr ⟨later, final, finished, rfl⟩⟩

theorem Step.lead (step : Step shop call answer after) : after.supply.lead = shop.supply.lead := by
  cases step with
  | synthesize made =>
    obtain ⟨-, -, -, -, -, lead, -⟩ := NameSupply.synthesize_count made
    exact lead
  | reserve => rfl
  | inline => rfl
  | clone _ made =>
    obtain ⟨-, -, -, -, -, lead, -⟩ := NameSupply.synthesize_count made
    exact lead

/-- Every answer of a run comes from a step, and all steps have the lead of the first. -/
theorem steps_of_run (finished : run calls shop = .ok answers final) :
    final.supply.lead = shop.supply.lead ∧ ∀ answer ∈ answers, ∃ call before after,
      Step before call answer after ∧ before.supply.lead = shop.supply.lead := by
  induction calls generalizing shop answers with
  | nil =>
    cases finished
    exact ⟨rfl, nofun⟩
  | cons call rest ih =>
    obtain ⟨answer, next, others, step, ended, rfl⟩ := run_cons.mp finished
    obtain ⟨lead, later⟩ := ih ended
    rw [step.lead] at lead later
    exact ⟨lead, List.forall_mem_cons.mpr ⟨⟨call, shop, next, step, rfl⟩, later⟩⟩

/-- What a call asks of the supply. -/
def Call.naming : Call → List NameSupply.Call
  | .synthesize text kind => [.synthesize text kind]
  | .reserve name => [.reserve name]
  | .clone _ _ method =>
    if method.parameters = [] ∧ method.typeParameters = [] then []
    else [.synthesize method.identifier .memberReference]

theorem reserve_mem_naming {name : String} :
    .reserve name ∈ calls.flatMap Call.naming ↔ .reserve name ∈ calls := by
  rw [List.mem_flatMap]
  constructor
  · rintro ⟨call, member, asked⟩
    cases call with
    | synthesize text kind => simp [Call.naming] at asked
    | reserve other =>
      cases List.mem_singleton.mp asked
      exact member
    | clone source overrides method =>
      rw [Call.naming] at asked
      split at asked <;> simp at asked
  · intro member
    exact ⟨_, member, List.mem_singleton_self _⟩

theorem Step.naming (step : Step shop call answer after) :
    ∃ names, NameSupply.run call.naming shop.supply = .ok names after.supply ∧
      names.map (·.name) = answer.names := by
  cases step with
  | @synthesize _ _ name supply made =>
    exact ⟨[name], NameSupply.run_synthesize.mpr ⟨name, supply, [], made, rfl, rfl⟩, rfl⟩
  | reserve => exact ⟨[], rfl, rfl⟩
  | inline bare =>
    rw [Call.naming, if_pos bare]
    exact ⟨[], rfl, rfl⟩
  | @clone source overrides method name supply writer needed made written =>
    rw [Call.naming, if_neg needed]
    exact ⟨[name], NameSupply.run_synthesize.mpr ⟨name, supply, [], made, rfl, rfl⟩, rfl⟩

/-- As far as names go, a run is a run of the supply. -/
theorem run_naming (finished : run calls shop = .ok answers final) :
    ∃ names, NameSupply.run (calls.flatMap Call.naming) shop.supply = .ok names final.supply ∧
      names.map (·.name) = answers.flatMap Answer.names := by
  induction calls generalizing shop answers with
  | nil =>
    cases finished
    exact ⟨[], rfl, rfl⟩
  | cons call rest ih =>
    obtain ⟨answer, next, others, step, ended, rfl⟩ := run_cons.mp finished
    obtain ⟨names, made, spelled⟩ := step.naming
    obtain ⟨laterNames, later, laterSpelled⟩ := ih ended
    refine ⟨names ++ laterNames, ?_, ?_⟩
    · rw [List.flatMap_cons]
      exact NameSupply.run_append.mpr ⟨names, next.supply, laterNames, made, later, rfl⟩
    · rw [List.map_append, List.flatMap_cons, spelled, laterSpelled]

theorem Step.filter_statements (step : Step shop call answer after)
    (valid : startsIdentifier shop.supply.lead = true) {handle : Handle} (solid : ' ' ∉ handle.text.toList)
    (other : handle.text ∉ answer.names) : answer.statements.filter (handle.Declares ·) = [] := by
  cases step with
  | synthesize => rfl
  | reserve => rfl
  | inline => rfl
  | @clone source overrides method name supply writer needed made written =>
    have nameSolid : ' ' ∉ (Handle.ofName name).text.toList := (OfIdentifier.synthesize valid made).not_mem rfl
    have different : handle ≠ .ofName name := fun same => other (same ▸ List.mem_singleton_self _)
    rw [Answer.statements, Handle.filter_cloneStatements solid nameSolid, if_neg different]

theorem filter_statements (finished : run calls shop = .ok answers final)
    (valid : startsIdentifier shop.supply.lead = true) {handle : Handle} (solid : ' ' ∉ handle.text.toList)
    (other : handle.text ∉ answers.flatMap Answer.names) :
    (answers.flatMap Answer.statements).filter (handle.Declares ·) = [] := by
  rw [List.filter_flatMap, List.flatMap_eq_nil_iff]
  intro answer member
  obtain ⟨call, before, after, step, lead⟩ := (steps_of_run finished).2 answer member
  exact step.filter_statements (lead ▸ valid) solid fun inside =>
    other (List.mem_flatMap.mpr ⟨answer, member, inside⟩)

theorem nodup_names (finished : run calls shop = .ok answers final) : (answers.flatMap Answer.names).Nodup := by
  obtain ⟨names, ran, spelled⟩ := run_naming finished
  rw [← spelled]
  exact (NameSupply.run_numbers ran).2

/-- A name that is made is neither one of the settings' reserved names nor reserved by a call before. -/
theorem not_reserved_of_made {settings : NamingSettings} {writer : Writer} {text : String} {kind : ElementKind}
    {name : SyntheticName} {supply : NameSupply}
    (reached : run calls ⟨.ofSettings settings, writer⟩ = .ok answers shop)
    (made : NameSupply.synthesize text kind shop.supply = .ok name supply) :
    name.name ∉ settings.reserved ∧ .reserve name.name ∉ calls := by
  obtain ⟨-, -, -, -, free, -⟩ := NameSupply.synthesize_ok made
  obtain ⟨names, ran, -⟩ := run_naming reached
  have start : (NameSupply.ofSettings settings).isReserved name.name = true ↔ name.name ∈ settings.reserved := by
    simp [NameSupply.isReserved, NameSupply.ofSettings]
  rw [← not_or, ← start, ← reserve_mem_naming, ← NameSupply.run_isReserved ran, free]
  exact Bool.false_ne_true

/-- Copies made in any order with other names and reservations, under settings that are valid. A method
without parameters and type parameters gives an expression and changes nothing. For any other method, the
copy has a name that nothing else in the run has and that was not reserved before; of all statements only
its first one declares that name; there is one loop for the parameters, if there are any, and one for the
type parameters, which read from the source and add to the copy; and the writer moves on by one line and
four more for each loop, unless a given text has line breaks of its own. -/
theorem clones_fresh_declared_once_and_counted {settings : Settings} {writer : Writer}
    (valid : settings.invalid? = none)
    (finished : run calls ⟨.ofSettings settings.naming, writer⟩ = .ok answers final) :
    ∀ before source overrides method after, calls = before ++ .clone source overrides method :: after →
      ∃ earlier clone later start next, answers = earlier ++ .cloned clone :: later ∧
        run before ⟨.ofSettings settings.naming, writer⟩ = .ok earlier start ∧
        perform (.clone source overrides method) start = .ok (.cloned clone) next ∧
        (method.parameters = [] ∧ method.typeParameters = [] → clone.statements = [] ∧ next = start) ∧
        (¬ (method.parameters = [] ∧ method.typeParameters = []) →
          clone.handle.text ∉ (earlier ++ later).flatMap Answer.names ∧
          clone.handle.text ∉ settings.naming.reserved ∧ .reserve clone.handle.text ∉ before ∧
          (∃ first loops, clone.statements = first :: loops ∧
            (answers.flatMap Answer.statements).filter (clone.handle.Declares ·) = [first] ∧
            loops =
              (if method.parameters = [] then [] else
                ["foreach (var p in " ++ source.text ++ ".Parameters)\n\x7b\n    " ++ clone.handle.text ++
                  ".Parameters.Add(new ParameterDefinition(p.Name, p.Attributes, p.ParameterType));\n\x7d"]) ++
              (if method.typeParameters = [] then [] else
                ["foreach (var gp in " ++ source.text ++ ".GenericParameters)\n\x7b\n    " ++
                  clone.handle.text ++ ".GenericParameters.Add(new GenericParameter(gp.Name, " ++
                  clone.handle.text ++ "));\n\x7d"])) ∧
          ('\n' ∉ source.text.toList →
            (∀ property text, overrides.get? property = some text → '\n' ∉ text.toList) →
            next.writer.line.toNat = start.writer.line.toNat + (1 +
              (if method.parameters = [] then 0 else 4) + (if method.typeParameters = [] then 0 else 4)))) := by
  intro before source overrides method after split
  subst split
  obtain ⟨earlier, start, _, reached, ended, rfl⟩ := run_append.mp finished
  obtain ⟨answer, next, later, step, rest, rfl⟩ := run_cons.mp ended
  cases step with
  | inline bare =>
    exact ⟨earlier, _, later, start, start, rfl, reached, (Step.inline bare).perform, fun _ => ⟨rfl, rfl⟩,
      fun needed => absurd bare needed⟩
  | @clone _ _ _ name supply writer needed made written =>
    have step := Step.clone needed made written
    refine ⟨earlier, _, later, start, _, rfl, reached, step.perform, fun bare => absurd bare needed, fun _ => ?_⟩
    have startLead : startsIdentifier start.supply.lead = true := by
      rw [(steps_of_run reached).1]
      exact Settings.startsIdentifier_lead valid
    have identifier := OfIdentifier.synthesize startLead made
    have solid : ' ' ∉ (Handle.ofName name).text.toList := identifier.not_mem rfl
    have fresh : name.name ∉ (earlier ++ later).flatMap Answer.names := by
      -- All names of the run are distinct, and this one stands between those of the two parts.
      have distinct := nodup_names finished
      rw [List.flatMap_append, List.flatMap_cons] at distinct
      rw [List.flatMap_append]
      exact (List.nodup_cons.mp (List.nodup_middle.mp distinct)).1
    obtain ⟨notGiven, notCalled⟩ := not_reserved_of_made reached made
    refine ⟨fresh, notGiven, notCalled, ⟨_, _, rfl, ?_, ?_⟩, ?_⟩
    · rw [List.flatMap_append, List.mem_append, not_or] at fresh
      have before := filter_statements reached (Settings.startsIdentifier_lead valid) solid fresh.1
      have behind := filter_statements rest (step.lead ▸ startLead) solid fresh.2
      rw [List.flatMap_append, List.flatMap_cons, List.filter_append, List.filter_append, before, behind,
        Answer.statements, Handle.filter_cloneStatements solid solid, if_pos rfl]
      rfl
    · rw [Handle.copyLoops_eq, Handle.parameterLoop_eq, Handle.typeParameterLoop_eq]
    · intro flat overridden
      rw [Writer.writeAll_line written,
        Handle.height_cloneStatements (identifier.not_mem rfl) flat overridden]

def setterSettings : Settings where
  naming := { lead := "cc_", reserved := ["__cc_mr_Set_1"] }

def setterShop : Workshop where
  supply := .ofSettings setterSettings.naming
  writer := .startingAt 1

def setterOverrides : Overrides where
  hasThis := some "false"

def setter : MethodSymbol where
  name := "Set"
  declaringType := ⟨"Base", none, []⟩
  returnType := ⟨"Void", none, []⟩
  parameters := [⟨"key", ⟨"T", none, []⟩⟩, ⟨"value", ⟨"Int32", some "System", []⟩⟩]
  typeParameters := ["T"]

/-- A copy with both kinds of loops, after a name that it could have had is reserved. -/
def setterCalls : List Call :=
  [.reserve "__cc_mr_Set_2", .clone ⟨"orig"⟩ setterOverrides setter]

theorem setter_clone_counted :
    setterSettings.invalid? = none ∧ ∃ answers final, run setterCalls setterShop = .ok answers final ∧
      answers.flatMap Answer.names = ["__cc_mr_Set_3"] ∧
      ∃ earlier clone later start next, answers = earlier ++ .cloned clone :: later ∧
        perform (.clone ⟨"orig"⟩ setterOverrides setter) start = .ok (.cloned clone) next ∧
        clone.handle.text ∉ (earlier ++ later).flatMap Answer.names ∧
        clone.statements.tail =
          ["foreach (var p in orig.Parameters)\n\x7b\n    " ++
              "__cc_mr_Set_3.Parameters.Add(new ParameterDefinition(p.Name, p.Attributes, p.ParameterType));\n\x7d",
            "foreach (var gp in orig.GenericParameters)\n\x7b\n    " ++
              "__cc_mr_Set_3.GenericParameters.Add(new GenericParameter(gp.Name, __cc_mr_Set_3));\n\x7d"] ∧
        next.writer.line.toNat = start.writer.line.toNat + 9 := by
  have valid : setterSettings.invalid? = none := by decide
  have overridden : setterOverrides.Flat := by
    intro property text held
    cases property with
    | hasThis =>
      cases held
      decide
    | _ => cases held
  have reached : ∃ name supply, NameSupply.synthesize setter.identifier .memberReference
      (setterShop.supply.reserve "__cc_mr_Set_2") = .ok name supply ∧ name.name = "__cc_mr_Set_3" :=
    ⟨_, _, rfl, by decide⟩
  obtain ⟨name, supply, made, spelled⟩ := reached
  have nameFlat : '\n' ∉ (Handle.ofName name).text.toList := by
    rw [Handle.ofName, spelled]
    decide
  have room : setterShop.writer.line.toNat +
      Writer.height (Handle.cloneStatements ⟨"orig"⟩ (.ofName name) setterOverrides setter) < UInt32.size := by
    rw [Handle.height_cloneStatements nameFlat (by decide) overridden]
    decide
  obtain ⟨writer, written⟩ := Writer.writeAll_ok room
  have copied : Step { setterShop with supply := setterShop.supply.reserve "__cc_mr_Set_2" }
      (.clone ⟨"orig"⟩ setterOverrides setter)
      (.cloned ⟨Handle.cloneStatements ⟨"orig"⟩ (.ofName name) setterOverrides setter, .ofName name⟩)
      ⟨supply, writer⟩ := .clone (by simp [setter]) made written
  have ended : run [] ⟨supply, writer⟩ = .ok [] ⟨supply, writer⟩ := rfl
  have finished : run setterCalls setterShop = _ :=
    run_cons.mpr ⟨_, _, _, Step.reserve, run_cons.mpr ⟨_, _, _, copied, ended, rfl⟩, rfl⟩
  obtain ⟨earlier, clone, later, start, next, split, before, performed, -, counted⟩ :=
    clones_fresh_declared_once_and_counted valid finished [.reserve "__cc_mr_Set_2"] _ _ _ [] rfl
  obtain ⟨fresh, -, -, ⟨first, loops, statements, -, texts⟩, lines⟩ := counted (by simp [setter])
  have handle : clone.handle.text = "__cc_mr_Set_3" := by
    -- The reservation is answered first, so the copy is the second answer.
    cases before
    rw [← spelled, ← Answer.cloned.inj (List.cons.inj (List.cons.inj split).2).1]
    rfl
  refine ⟨valid, _, _, finished, ?_, earlier, clone, later, start, next, split, performed, fresh, ?_, ?_⟩
  · rw [← spelled]
    rfl
  · rw [statements, List.tail_cons, texts, handle]
    rfl
  · exact lines (by decide) overridden

end Workshop

end Scribe
