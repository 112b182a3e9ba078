import Mathlib.Data.List.Forall2
import Scribe.Proofs.MappingRecords
import Scribe.Proofs.VisitorPrograms
import Scribe.Proofs.WriterLines

/-! The records of a visitor's run. However its visits end and whatever is caught on the way, the run
leaves one record for each visit, in the order in which the nodes were entered: a visit is numbered when
its scope is opened, so its record goes before those of the visits inside it, which were closed first. -/

namespace Scribe

variable {ε α β : Type} {raise : Unregistered → ε}

namespace Tracker

/-- The trackers that can come about. A scope is closed on the tracker that gave it out. -/
inductive Reachable : Tracker → Prop where
  | new (enabled : Bool) : Reachable (.new enabled)
  | openScope {tracker : Tracker} (earlier : Reachable tracker) (source : Position) (line : UInt32) :
      Reachable (tracker.openScope source line).2
  | closeScope {tracker : Tracker} {scope : Scope} (earlier : Reachable tracker)
      (given : scope.order < tracker.opened) (source : Position) (line : UInt32) :
      Reachable (tracker.closeScope scope source line)
  | take {tracker : Tracker} (earlier : Reachable tracker) : Reachable tracker.take.2

theorem Reachable.lt_opened {tracker : Tracker} (reachable : tracker.Reachable) :
    ∀ entry ∈ tracker.recorded.entries, entry.order < tracker.opened := by
  induction reachable with
  | new enabled =>
    intro entry member
    cases member
  | openScope earlier source line ih =>
    intro entry member
    exact Nat.lt_succ_of_lt (ih entry member)
  | closeScope earlier given source line ih =>
    intro entry member
    simp only [Tracker.closeScope] at member
    split at member
    next =>
      rcases MappingList.mem_insertEntry.mp member with rfl | member
      · exact given
      · exact ih entry member
    next => exact ih entry member
  | take earlier ih =>
    intro entry member
    cases member

/-- Every record of an enabled tracker belongs to a scope that it has opened. -/
structure Recording (tracker : Tracker) : Prop where
  enabled : tracker.enabled = true
  lt_opened : ∀ entry ∈ tracker.recorded.entries, entry.order < tracker.opened

/-- Mappings with numbers that go up from the given one. -/
def numbered (first : Nat) (mappings : List Mapping) : List MappingEntry :=
  (mappings.zipIdx first).map fun (mapping, order) => ⟨order, mapping⟩

theorem numbered_cons (first : Nat) (mapping : Mapping) (rest : List Mapping) :
    numbered first (mapping :: rest) = ⟨first, mapping⟩ :: numbered (first + 1) rest := rfl

theorem numbered_append (first : Nat) (early late : List Mapping) :
    numbered first (early ++ late) = numbered first early ++ numbered (first + early.length) late := by
  simp only [numbered, List.zipIdx_append, List.map_append]

theorem mappings_numbered (first : Nat) (mappings : List Mapping) :
    (numbered first mappings).map (·.mapping) = mappings := by
  simp only [numbered, List.map_map, Function.comp_def, List.zipIdx_map_fst]

theorem order_of_mem_numbered {first : Nat} {mappings : List Mapping} {entry : MappingEntry}
    (member : entry ∈ numbered first mappings) :
    first ≤ entry.order ∧ entry.order < first + mappings.length := by
  obtain ⟨⟨mapping, order⟩, inside, rfl⟩ := List.mem_map.mp member
  exact ⟨List.le_snd_of_mem_zipIdx inside, List.snd_lt_add_of_mem_zipIdx inside⟩

/-- The tracker after further scopes were opened and all of them closed, given their mappings in opening
order. -/
def extended (tracker : Tracker) (added : List Mapping) : Tracker :=
  { tracker with
    recorded := ⟨tracker.recorded.entries ++ numbered tracker.opened added⟩
    opened := tracker.opened + added.length }

theorem extended_nil (tracker : Tracker) : tracker.extended [] = tracker := by
  simp [extended, numbered]

theorem extended_extended (tracker : Tracker) (early late : List Mapping) :
    (tracker.extended early).extended late = tracker.extended (early ++ late) := by
  simp [extended, numbered_append, Nat.add_assoc]

theorem Recording.extended {tracker : Tracker} (recording : tracker.Recording) (added : List Mapping) :
    (tracker.extended added).Recording := by
  refine ⟨recording.enabled, ?_⟩
  intro entry member
  show entry.order < tracker.opened + added.length
  rcases List.mem_append.mp member with old | new
  · have earlier := recording.lt_opened entry old
    omega
  · exact (order_of_mem_numbered new).2

theorem Recording.openScope {tracker : Tracker} (recording : tracker.Recording) (source : Position)
    (line : UInt32) : (tracker.openScope source line).2.Recording :=
  ⟨recording.enabled, fun entry member => Nat.lt_succ_of_lt (recording.lt_opened entry member)⟩

/-- Closing a scope after everything inside it puts its record between the old ones and the inner ones. -/
theorem Recording.closeScope {tracker : Tracker} (recording : tracker.Recording) (start finish : Position)
    (line last : UInt32) (inner : List Mapping) :
    ((tracker.openScope start line).2.extended inner).closeScope (tracker.openScope start line).1 finish
        last =
      tracker.extended (record (tracker.openScope start line).1 finish last :: inner) := by
  have above : ∀ other ∈ numbered (tracker.opened + 1) inner, tracker.opened ≤ other.order :=
    fun other member => Nat.le_of_succ_le (order_of_mem_numbered member).1
  have between := MappingList.insertEntry_between
    ⟨tracker.opened, record (tracker.openScope start line).1 finish last⟩ recording.lt_opened above
  simp only [Tracker.openScope] at between
  simp [Tracker.closeScope, Tracker.extended, Tracker.openScope, recording.enabled, MappingList.insert,
    between, numbered_cons, Nat.add_assoc, Nat.add_comm 1]

end Tracker

/-- A registered tracker is one that records. -/
def Context.Recording (context : Context) : Prop :=
  ∀ tracker, context.services.get? .tracker = some tracker → tracker.Recording

theorem Context.Recording.enter {context : Context} {tracker : Tracker} (recording : context.Recording)
    (node : Node) (tracked : context.services.get? .tracker = some tracker) (writer : Writer) :
    (context.enter node tracker writer).Recording := by
  intro opened held
  rw [Context.enter, get?_modifyService_self, tracked] at held
  cases held
  exact (recording tracker tracked).openScope node.span.start writer.line

/-- The mapping goes from the node's span to the lines between the entry and the exit of the visit. -/
def Visit.Recorded (visit : Visit) (mapping : Mapping) : Prop :=
  mapping.source = visit.node.span ∧ visit.entry.line? = some mapping.output.start.line ∧
    visit.exit.line? = some mapping.output.finish.line

/-- What a part of a run with the given visits does to a context: the tracker gets one record for each
visit and has no more scopes open than before, and the line counter is not set back. -/
structure Leaves (before : Context) (visits : List Visit) (after : Context) : Prop where
  tracker : ∃ added, List.Forall₂ Visit.Recorded visits added ∧
    after.services.get? .tracker = (before.services.get? .tracker).map (·.extended added)
  line : ∀ line, before.line? = some line → ∃ later, after.line? = some later ∧ line ≤ later

namespace Leaves

theorem refl (context : Context) : Leaves context [] context := by
  refine ⟨⟨[], .nil, ?_⟩, fun line held => ⟨line, held, UInt32.le_refl line⟩⟩
  simp only [Tracker.extended_nil, Option.map_id']

theorem trans {first middle last : Context} {early late : List Visit}
    (before : Leaves first early middle) (after : Leaves middle late last) :
    Leaves first (early ++ late) last := by
  obtain ⟨⟨added, recorded, tracked⟩, moved⟩ := before
  obtain ⟨⟨more, moreRecorded, moreTracked⟩, movedOn⟩ := after
  refine ⟨⟨added ++ more, List.rel_append recorded moreRecorded, ?_⟩, ?_⟩
  · rw [moreTracked, tracked, Option.map_map]
    simp only [Function.comp_def, Tracker.extended_extended]
  · intro line held
    obtain ⟨later, reached, le⟩ := moved line held
    obtain ⟨latest, ended, stillLe⟩ := movedOn later reached
    exact ⟨latest, ended, UInt32.le_trans le stillLe⟩

theorem recording {before after : Context} {visits : List Visit} (leaves : Leaves before visits after)
    (recording : before.Recording) : after.Recording := by
  obtain ⟨⟨added, _, tracked⟩, _⟩ := leaves
  intro tracker held
  rw [tracked] at held
  obtain ⟨earlier, heldBefore, rfl⟩ := Option.map_eq_some_iff.mp held
  exact (recording earlier heldBefore).extended added

theorem of_other (kind : ServiceKind) (context : Context) (change : kind.Service → kind.Service)
    (untracked : kind ≠ .tracker) (unwritten : kind ≠ .writer) :
    Leaves context [] (context.modifyService kind change) := by
  have same := refl context
  refine ⟨?_, ?_⟩
  · rw [Context.get?_modifyService_other context change untracked]
    exact same.tracker
  · rw [Context.line?_modifyService context change unwritten]
    exact same.line

theorem of_instances (context : Context) (change : InstanceMemo → InstanceMemo) :
    Leaves context [] (context.modifyService .instances change) :=
  of_other .instances context change (by decide) (by decide)

theorem of_writer (context : Context) (change : Writer → Writer)
    (later : ∀ writer, writer.line ≤ (change writer).line) :
    Leaves context [] (context.modifyService .writer change) := by
  refine ⟨?_, ?_⟩
  · have different : ServiceKind.writer ≠ .tracker := by decide
    rw [Context.get?_modifyService_other context change different]
    exact (refl context).tracker
  · intro line held
    obtain ⟨writer, registered, rfl⟩ := Option.map_eq_some_iff.mp held
    refine ⟨(change writer).line, ?_, later writer⟩
    simp only [Context.line?, Context.get?_modifyService_self, registered, Option.map_some]

/-- A visit as a whole, given what happened between its entry and its exit. -/
theorem of_visit {context reached : Context} {tracker : Tracker} {writer : Writer} {visits : List Visit}
    {node : Node} (recording : context.Recording)
    (tracked : context.services.get? .tracker = some tracker)
    (written : context.services.get? .writer = some writer)
    (inner : Leaves (context.enter node tracker writer) visits reached) :
    Leaves context (⟨node, context, reached⟩ :: visits)
      (reached.closeScope (tracker.openScope node.span.start writer.line).1 node) := by
  have different : ServiceKind.tracker ≠ .writer := by decide
  have entryLine : context.line? = some writer.line := by simp only [Context.line?, written, Option.map_some]
  obtain ⟨⟨added, recorded, innerTracker⟩, innerLine⟩ := inner
  rw [Context.enter, Context.get?_modifyService_self, tracked] at innerTracker
  rw [Context.enter, Context.line?_modifyService _ _ different, entryLine] at innerLine
  obtain ⟨last, exitLine, le⟩ := innerLine writer.line rfl
  -- The counter is not set back inside, so the record ends where the counter stands.
  have ended := Tracker.finish_record (tracker.openScope node.span.start writer.line).1 node.span.finish
    (UInt32.le_iff_toNat_le.mp le)
  have closed := (recording tracker tracked).closeScope node.span.start node.span.finish writer.line last added
  refine ⟨⟨Tracker.record (tracker.openScope node.span.start writer.line).1 node.span.finish last :: added,
    .cons ⟨rfl, entryLine, ?_⟩ recorded, ?_⟩, ?_⟩
  · rw [exitLine, ended]
  · simp only [Context.closeScope, Context.get?_modifyService_self, innerTracker, Option.map_some, exitLine,
      Option.getD_some, closed, tracked]
  · intro line held
    rw [entryLine] at held
    cases held
    exact ⟨last, by rw [Context.closeScope, Context.line?_modifyService _ _ different, exitLine], le⟩

/-- An instance that is asked for, given what its maker does if it has to run. -/
theorem of_instance {context : Context} {key : InstantiationKey} {make : Action ε Context Handle}
    {visits : List Visit}
    (making : Leaves (context.modifyService .instances Memo.countMiss) visits
      (stateAfter make (context.modifyService .instances Memo.countMiss))) :
    Leaves context (if context.makes key then visits else [])
      (stateAfter (Context.getOrMakeInstance Lens.self raise key make) context) := by
  cases held : context.services.get? .instances with
  | none =>
    simp only [Context.makes, stateAfter, Context.getOrMakeInstance_missing key make held, held]
    exact refl context
  | some memo =>
    cases stored : memo.find? key with
    | some handle =>
      simp only [Context.makes, stateAfter, Context.getOrMakeInstance_found make held stored, held,
        Option.any_some, Memo.contains, stored]
      exact of_instances context Memo.countHit
    | none =>
      have through := (of_instances context Memo.countMiss).trans making
      simp only [Context.makes, stateAfter, Context.getOrMakeInstance_absent make held stored, held,
        Option.any_some, Memo.contains, stored] at through ⊢
      cases ended : make (context.modifyService .instances Memo.countMiss) with
      | ok own after =>
        simp only [ended] at through ⊢
        simpa using through.trans (of_instances after (·.store key own))
      | error stop after =>
        simp only [ended] at through ⊢
        simpa using through

/-- An operation and then what follows it, if the operation ends with a value. -/
theorem bind {context : Context} {operation : Action ε Context β} {next : β → Action ε Context α}
    {visits : List Visit} {later : β → Context → List Visit} (recording : context.Recording)
    (first : Leaves context visits (stateAfter operation context))
    (rest : ∀ value after, after.Recording → Leaves after (later value after) (stateAfter (next value) after)) :
    Leaves context (visits ++ following operation later context)
      (stateAfter (operation >>= next) context) := by
  have recordingAfter := first.recording recording
  rw [stateAfter_bind]
  cases ended : operation context with
  | ok value after =>
    simp only [stateAfter, ended] at first recordingAfter
    simp only [following, ended]
    exact first.trans (rest value after recordingAfter)
  | error stop after =>
    simp only [stateAfter, ended] at first
    simpa only [following, ended, List.append_nil] using first

end Leaves

theorem Request.leaves (request : Request α) (context : Context) :
    Leaves context [] (stateAfter (request.perform raise) context) := by
  cases request with
  | write statement =>
    rw [perform, Context.write, Context.stateAfter_perform]
    apply Leaves.of_writer context (stateAfter (Writer.write statement))
    exact Writer.line_le_write statement
  | writeAll statements =>
    rw [perform, Context.writeAll, Context.stateAfter_perform]
    apply Leaves.of_writer context (stateAfter (Writer.writeAll statements))
    exact Writer.line_le_writeAll statements
  | synthesize hint kind =>
    rw [perform, Context.synthesize, Context.stateAfter_perform]
    exact .of_other .naming context _ (by decide) (by decide)
  | cloneReference source overrides method =>
    rw [perform, Context.cloneReference, Context.stateAfter_perform]
    exact .of_other .naming context _ (by decide) (by decide)

namespace Visitor

theorem leaves (raise : Unregistered → ε) (visitor : Visitor ε α) {context : Context}
    (recording : context.Recording) :
    Leaves context (visitor.visits raise context) (stateAfter (visitor.run raise) context) := by
  induction visitor generalizing context with
  | finish value => exact .refl context
  | fail cause => exact .refl context
  | abort message => exact .refl context
  | ask request next ih =>
    exact .bind recording (request.leaves context) fun answer after => ih answer
  | instantiate key make next ihMake ihNext =>
    have counted := Leaves.of_instances context Memo.countMiss
    have made := ihMake (counted.recording recording)
    exact .bind recording (.of_instance made) fun handle after => ihNext handle
  | visit node body next ihBody ihNext =>
    refine .bind recording ?_ fun value after => ihNext value
    -- With both services the scope is closed on what the body has left; otherwise nothing is entered.
    cases tracked : context.services.get? .tracker with
    | none =>
      simp only [stateAfter, Context.withMapping_untracked node _ tracked]
      exact .refl context
    | some tracker =>
      cases written : context.services.get? .writer with
      | none =>
        simp only [stateAfter, Context.withMapping_unwritten node _ tracked written]
        exact .refl context
      | some writer =>
        have inner := ihBody (recording.enter node tracked writer)
        rw [Context.stateAfter_withMapping node _ tracked written]
        exact .of_visit recording tracked written inner
  | settle body next ihBody ihNext =>
    refine .bind recording ?_ fun result after => ihNext result
    rw [Action.stateAfter_settle]
    exact ihBody recording

/-- Whatever a visitor does, and whether its visits end with values, failures or aborts that are caught
anywhere or nowhere: a registered tracker gets one record for each visit, in the order in which the nodes
were entered, and has as many scopes open as before. A visit ends just as its visitor does. Without a
tracker, or else without a writer, it fails and changes nothing. -/
theorem visits_recorded_in_order_of_entry (raise : Unregistered → ε) (visitor : Visitor ε α)
    {context : Context}
    (recording : ∀ tracker, context.services.get? .tracker = some tracker →
      tracker.enabled = true ∧ tracker.Reachable) :
    (∀ tracker, context.services.get? .tracker = some tracker → ∃ after added,
      (stateAfter (visitor.run raise) context).services.get? .tracker = some after ∧
      after.recorded.mappings = tracker.recorded.mappings ++ added ∧
      List.Forall₂ Visit.Recorded (visitor.visits raise context) added ∧
      after.depth = tracker.depth) ∧
    ∀ {β : Type} (node : Node) (visit : Action ε Context β) (place : Context),
      (∀ tracker writer, place.services.get? .tracker = some tracker →
        place.services.get? .writer = some writer →
        outcome (Context.withMapping Lens.self raise node visit) place =
          outcome visit (place.enter node tracker writer)) ∧
      (place.services.get? .tracker = none →
        Context.withMapping Lens.self raise node visit place =
          .error (.failure (raise ⟨.tracker⟩)) place) ∧
      ((place.services.get? .tracker).isSome → place.services.get? .writer = none →
        Context.withMapping Lens.self raise node visit place =
          .error (.failure (raise ⟨.writer⟩)) place) := by
  have consistent : context.Recording := by
    intro tracker held
    obtain ⟨enabled, reachable⟩ := recording tracker held
    exact ⟨enabled, reachable.lt_opened⟩
  refine ⟨?_, ?_⟩
  · intro tracker held
    obtain ⟨⟨added, recorded, tracked⟩, -⟩ := visitor.leaves raise consistent
    rw [held] at tracked
    refine ⟨tracker.extended added, added, tracked, ?_, recorded, rfl⟩
    simp only [MappingList.mappings, Tracker.extended, List.map_append, Tracker.mappings_numbered]
  · intro β node visit place
    refine ⟨?_, Context.withMapping_untracked node _, ?_⟩
    · intro tracker writer tracked written
      exact Context.outcome_withMapping node _ tracked written
    · intro registered missing
      obtain ⟨tracker, tracked⟩ := Option.isSome_iff_exists.mp registered
      exact Context.withMapping_unwritten node _ tracked missing

/-- A visit with two guarded parts. In the first a visit fails; in the second one visit aborts inside
another. -/
def guardedVisits : Visitor String Unit :=
  .visit (.bare ⟨⟨1, 1⟩, ⟨9, 2⟩⟩)
    (.settle (.visit (.bare ⟨⟨2, 3⟩, ⟨2, 9⟩⟩) (.ask (.write "a();") fun _ => .fail "unsupported")
      fun (result : Unit) => .finish result) fun _ =>
    .settle (.visit (.bare ⟨⟨3, 3⟩, ⟨8, 4⟩⟩)
      (.visit (.bare ⟨⟨4, 5⟩, ⟨4, 11⟩⟩) (.ask (.write "b();\nc();") fun _ => .abort "unreachable")
        fun (result : Unit) => .finish result)
      .finish) fun _ =>
    .ask (.write "d();") fun _ => .finish ())
    .finish

def guardedMappings : List Mapping :=
  [⟨⟨⟨1, 1⟩, ⟨9, 2⟩⟩, ⟨⟨1⟩, ⟨5⟩⟩⟩, ⟨⟨⟨2, 3⟩, ⟨2, 9⟩⟩, ⟨⟨1⟩, ⟨2⟩⟩⟩, ⟨⟨⟨3, 3⟩, ⟨8, 4⟩⟩, ⟨⟨2⟩, ⟨4⟩⟩⟩,
    ⟨⟨⟨4, 5⟩, ⟨4, 11⟩⟩, ⟨⟨2⟩, ⟨4⟩⟩⟩]

theorem guarded_visits_recorded :
    (Context.new {}).services.get? .tracker = some (.new true) ∧ (Tracker.new true).Reachable ∧
    ∃ after added,
      (stateAfter (guardedVisits.run Unregistered.message) (.new {})).services.get? .tracker = some after ∧
      after.recorded.mappings = added ∧ added = guardedMappings ∧
      List.Forall₂ Visit.Recorded (guardedVisits.visits Unregistered.message (.new {})) added ∧
      after.depth = 0 := by
  have held : (Context.new {}).services.get? .tracker = some (.new true) := rfl
  have recording : ∀ tracker, (Context.new {}).services.get? .tracker = some tracker →
      tracker.enabled = true ∧ tracker.Reachable := by
    intro tracker registered
    cases held.symm.trans registered
    exact ⟨rfl, .new true⟩
  obtain ⟨after, added, tracked, mappings, recorded, depth⟩ :=
    (visits_recorded_in_order_of_entry Unregistered.message guardedVisits recording).1 _ held
  have evaluated : ((stateAfter (guardedVisits.run Unregistered.message) (.new {})).services.get?
      .tracker).map (·.recorded.mappings) = some guardedMappings := by
    decide +kernel
  rw [tracked, Option.map_some, mappings] at evaluated
  exact ⟨held, .new true, after, added, tracked, mappings, Option.some.inj evaluated, recorded, depth⟩

end Visitor

end Scribe
