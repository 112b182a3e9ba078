import Scribe.Proofs.RenderedLines
import Scribe.Proofs.ScopeExtents

/-! The text behind a record. In whatever order scopes are closed, the output block of a record selects
exactly the lines of the statements that were written between the opening and the closing of its
scope. -/

namespace Scribe

/-- The lines of a block, if the first line of the text has the given number. -/
def Writer.linesOf (writer : Writer) (firstLine : UInt32) (block : OutputBlock) : List String :=
  (writer.lines.drop (block.start.line.toNat - firstLine.toNat)).take block.length

namespace Session

deriving instance DecidableEq for Step

def Step.isOpening : Step → Bool
  | .openScope .. => true
  | _ => false

/-- The statements that steps write. -/
def written (steps : List Step) : List String :=
  steps.flatMap fun step =>
    match step with
    | .write statements => statements
    | _ => []

/-- The step opens a scope on a known node, closes a scope that the steps before it have opened and not
closed, or writes. -/
def Step.Follows (nodes : Array Node) (done : List Step) : Step → Prop
  | .openScope node byHand => node < nodes.size ∧ byHand = false
  | .closeScope number => number < done.countP Step.isOpening ∧ .closeScope number ∉ done
  | .write _ => True
  | _ => False

instance (nodes : Array Node) (done : List Step) : (step : Step) → Decidable (step.Follows nodes done)
  | .openScope .. => inferInstanceAs (Decidable (_ ∧ _))
  | .closeScope .. => inferInstanceAs (Decidable (_ ∧ _))
  | .write .. => inferInstanceAs (Decidable True)
  | .crash .. => inferInstanceAs (Decidable False)
  | .setLine .. => inferInstanceAs (Decidable False)
  | .setSpan .. => inferInstanceAs (Decidable False)
  | .take => inferInstanceAs (Decidable False)

/-- Each step can follow those before it, `done` being the steps that come before all of them. -/
def Proper (nodes : Array Node) (done : List Step) : List Step → Prop
  | [] => True
  | step :: rest => step.Follows nodes done ∧ Proper nodes (done ++ [step]) rest

def Proper.decidable (nodes : Array Node) : (done steps : List Step) → Decidable (Proper nodes done steps)
  | _, [] => inferInstanceAs (Decidable True)
  | done, step :: rest =>
    have := Proper.decidable nodes (done ++ [step]) rest
    inferInstanceAs (Decidable (_ ∧ _))

instance (nodes : Array Node) (done steps : List Step) : Decidable (Proper nodes done steps) :=
  Proper.decidable nodes done steps

/-- The scope is opened after the steps `before`, and closed after the steps `inside` that come next. -/
def Divides (steps : List Step) (number : Nat) (before inside : List Step) : Prop :=
  before.countP Step.isOpening = number ∧
    ∃ node after, steps = before ++ .openScope node false :: (inside ++ .closeScope number :: after)

theorem written_append (first second : List Step) :
    written (first ++ second) = written first ++ written second :=
  List.flatMap_append

theorem Divides.append {steps before inside : List Step} {number : Nat}
    (divides : Divides steps number before inside) (later : List Step) :
    Divides (steps ++ later) number before inside := by
  obtain ⟨count, node, after, rfl⟩ := divides
  exact ⟨count, node, after ++ later, by simp⟩

/-- The open scope is one that the steps have opened, on a known node and at the line of that moment. -/
def Begun (nodes : Array Node) (firstLine : UInt32) (done : List Step) (number : Nat)
    (openScope : OpenScope) : Prop :=
  openScope.byHand = false ∧ openScope.node < nodes.size ∧
    ∃ before node inside, done = before ++ .openScope node false :: inside ∧
      before.countP Step.isOpening = number ∧
      openScope.scope.line.toNat = firstLine.toNat + Writer.height (written before)

theorem Begun.append {nodes : Array Node} {firstLine : UInt32} {done : List Step} {number : Nat}
    {openScope : OpenScope} (begun : Begun nodes firstLine done number openScope)
    (later : List Step) : Begun nodes firstLine (done ++ later) number openScope := by
  obtain ⟨byWriter, known, before, node, inside, rfl, counted, line⟩ := begun
  exact ⟨byWriter, known, before, node, inside ++ later, by simp, counted, line⟩

/-- The record goes from the line where its scope was opened to the line where it was closed. -/
def Spans (firstLine : UInt32) (done : List Step) (entry : MappingEntry) : Prop :=
  ∃ before inside, Divides done entry.order before inside ∧
    entry.mapping.output.start.line.toNat = firstLine.toNat + Writer.height (written before) ∧
    entry.mapping.output.finish.line.toNat =
      firstLine.toNat + Writer.height (written (before ++ inside))

theorem Spans.append {firstLine : UInt32} {done : List Step} {entry : MappingEntry}
    (spans : Spans firstLine done entry) (later : List Step) :
    Spans firstLine (done ++ later) entry := by
  obtain ⟨before, inside, divides, lines⟩ := spans
  exact ⟨before, inside, divides.append later, lines⟩

/-- What the steps done so far tell about a session. Lines are counted in the statements that were
written before. -/
structure Recounted (nodes : Array Node) (firstLine : UInt32) (done : List Step) (session : Session) :
    Prop where
  numbered : Numbered session
  unchanged : session.nodes = nodes
  enabled : session.tracker.enabled = true
  statements : session.writer.statements.toList = (written done).map Writer.trimmed
  line : session.writer.line.toNat = firstLine.toNat + Writer.height (written done)
  size : session.scopes.size = done.countP Step.isOpening
  closed : ∀ {number : Nat}, session.scopes[number]? = some none → .closeScope number ∈ done
  begun : ∀ {number : Nat} {openScope : OpenScope},
    session.scopes[number]? = some (some openScope) → Begun nodes firstLine done number openScope
  recorded : ∀ entry ∈ session.tracker.recorded.entries, Spans firstLine done entry
  kept : ∀ {number : Nat}, .closeScope number ∈ done →
    ∃ entry ∈ session.tracker.recorded.entries, entry.order = number

theorem Recounted.new (nodes : Array Node) (firstLine : UInt32) :
    Recounted nodes firstLine [] (.new nodes true firstLine) where
  numbered := .new nodes true firstLine
  unchanged := rfl
  enabled := rfl
  statements := rfl
  line := rfl
  size := rfl
  closed held := by simp [Session.new] at held
  begun held := by simp [Session.new] at held
  recorded entry member := by cases member
  kept closed := by cases closed

theorem Recounted.openAt {nodes : Array Node} {firstLine : UInt32} {done : List Step}
    {session : Session} (recounted : Recounted nodes firstLine done session) {node : Nat}
    (source : Position) (known : node < nodes.size) :
    Recounted nodes firstLine (done ++ [.openScope node false])
      (session.openAt node source false) := by
  have silent : written (done ++ [.openScope node false]) = written done := by simp [written]
  refine ⟨recounted.numbered.openAt node source false, recounted.unchanged, recounted.enabled, ?_, ?_, ?_,
    ?_, ?_, ?_, ?_⟩
  · rw [silent]
    exact recounted.statements
  · rw [silent]
    exact recounted.line
  · simp [Session.openAt, recounted.size, Step.isOpening]
  · intro number held
    rw [scopes_openAt] at held
    split at held
    next => cases held
    next => exact List.mem_append_left _ (recounted.closed held)
  · intro number openScope held
    rw [scopes_openAt] at held
    split at held
    next newest =>
      cases held
      exact ⟨rfl, known, done, node, [], rfl, recounted.size.symm.trans newest.symm, recounted.line⟩
    next => exact (recounted.begun held).append _
  · intro entry member
    exact (recounted.recorded entry member).append _
  · intro number closed
    exact recounted.kept (by simpa using closed)

theorem Recounted.commit {nodes : Array Node} {firstLine : UInt32} {done : List Step}
    {session : Session} (recounted : Recounted nodes firstLine done session) {number : Nat}
    {openScope : OpenScope} (held : session.scopes[number]? = some (some openScope)) (node : Node) :
    Recounted nodes firstLine (done ++ [.closeScope number])
      (session.commit number openScope node) := by
  have silent : written (done ++ [.closeScope number]) = written done := by simp [written]
  have size := IsOpen.lt_size ⟨_, held⟩
  refine ⟨recounted.numbered.commit held node, recounted.unchanged, recounted.enabled, ?_, ?_, ?_,
    ?_, ?_, ?_, ?_⟩
  · rw [silent]
    exact recounted.statements
  · rw [silent]
    exact recounted.line
  · simp [Session.commit, recounted.size, Step.isOpening]
  · intro other closed
    rw [scopes_commit size] at closed
    split at closed
    next same => simp [same]
    next => exact List.mem_append_left _ (recounted.closed closed)
  · intro other otherScope kept
    rw [scopes_commit size] at kept
    split at kept
    next => cases kept
    next => exact (recounted.begun kept).append _
  · intro entry member
    rcases mem_recorded_commit member with rfl | member
    · obtain ⟨byWriter, -, before, opened, inside, split, counted, line⟩ := recounted.begun held
      have passed : written done = written before ++ written inside := by
        rw [split, written_append]
        rfl
      have current := recounted.line
      rw [passed, Writer.height_append] at current
      have begun : openScope.scope.line.toNat ≤ session.writer.line.toNat := by omega
      refine ⟨before, inside, ⟨?_, opened, [], ?_⟩, ?_, ?_⟩
      · simp only [recounted.numbered.places held, counted]
      · simp only [recounted.numbered.places held, split, List.append_assoc, List.cons_append]
      · exact line
      · simp only [Session.line, byWriter, Bool.false_eq_true, if_false, Tracker.finish_record _ _ begun,
          recounted.line, passed, written_append]
    · exact (recounted.recorded entry member).append _
  · intro other closed
    simp only [Session.commit, Tracker.closeScope, recounted.enabled, if_true, MappingList.insert,
      MappingList.mem_insertEntry]
    rcases List.mem_append.mp closed with earlier | now
    · obtain ⟨entry, member, order⟩ := recounted.kept earlier
      exact ⟨entry, .inr member, order⟩
    · cases List.mem_singleton.mp now
      exact ⟨_, .inl rfl, recounted.numbered.places held⟩

theorem Recounted.write {nodes : Array Node} {firstLine : UInt32} {done : List Step}
    {session : Session} (recounted : Recounted nodes firstLine done session)
    {statements : List String} {writer : Writer}
    (wrote : Writer.writeAll statements session.writer = .ok () writer) :
    Recounted nodes firstLine (done ++ [.write statements]) { session with writer } := by
  have passed : written (done ++ [.write statements]) = written done ++ statements := by
    simp [written]
  refine ⟨recounted.numbered.transition (.write wrote), recounted.unchanged, recounted.enabled, ?_, ?_, ?_,
    ?_, ?_, ?_, ?_⟩
  · simp only [passed, Writer.writeAll_statements wrote, recounted.statements, List.map_append]
  · simp only [passed, Writer.writeAll_line wrote, recounted.line, Writer.height_append,
      Nat.add_assoc]
  · simp [recounted.size, Step.isOpening]
  · intro number closed
    exact List.mem_append_left _ (recounted.closed closed)
  · intro number openScope held
    exact (recounted.begun held).append _
  · intro entry member
    exact (recounted.recorded entry member).append _
  · intro number closed
    exact recounted.kept (by simpa using closed)

/-- A proper step succeeds as long as the line counter does not pass its last value. -/
theorem Recounted.step {nodes : Array Node} {firstLine : UInt32} {done : List Step}
    {session : Session} (recounted : Recounted nodes firstLine done session) {step : Step}
    (follows : step.Follows nodes done)
    (fits : firstLine.toNat + Writer.height (written (done ++ [step])) < UInt32.size) :
    ∃ after, apply step session = .ok () after ∧
      Recounted nodes firstLine (done ++ [step]) after := by
  cases step with
  | openScope node byHand =>
    obtain ⟨inside, rfl⟩ := follows
    have known : session.nodes[node]? = some nodes[node] := by
      rw [recounted.unchanged]
      exact Array.getElem?_eq_getElem inside
    refine ⟨_, ?_, recounted.openAt nodes[node].span.start inside⟩
    simp only [apply, known]
  | closeScope number =>
    obtain ⟨opened, unclosed⟩ := follows
    rw [← recounted.size] at opened
    cases held : session.scopes[number]? with
    | none => exact absurd opened (Nat.not_lt.mpr (Array.getElem?_eq_none_iff.mp held))
    | some place =>
      cases place with
      | none => exact absurd (recounted.closed held) unclosed
      | some openScope =>
        obtain ⟨-, inside, -⟩ := recounted.begun held
        have known : session.nodes[openScope.node]? = some nodes[openScope.node] := by
          rw [recounted.unchanged]
          exact Array.getElem?_eq_getElem inside
        refine ⟨_, ?_, recounted.commit held nodes[openScope.node]⟩
        exact close_eq held known
  | write statements =>
    have room : session.writer.line.toNat + Writer.height statements < UInt32.size := by
      rw [recounted.line, Nat.add_assoc, ← Writer.height_append]
      simpa [written] using fits
    obtain ⟨writer, wrote⟩ := Writer.writeAll_ok room
    refine ⟨_, ?_, recounted.write wrote⟩
    simp only [apply, Session.writeAll, wrote]
  | crash node text message => exact follows.elim
  | setLine line => exact follows.elim
  | setSpan node span => exact follows.elim
  | take => exact follows.elim

theorem run_recounted {nodes : Array Node} {firstLine : UInt32} {steps : List Step}
    (proper : Proper nodes [] steps)
    (fits : firstLine.toNat + Writer.height (written steps) < UInt32.size) :
    ∃ final, run steps (.new nodes true firstLine) = .ok () final ∧
      Recounted nodes firstLine steps final := by
  -- Induction on the steps that are left; the invariant is about those already done.
  have onwards (rest : List Step) : ∀ done session, steps = done ++ rest →
      Proper nodes done rest → Recounted nodes firstLine done session →
      ∃ final, run rest session = .ok () final ∧ Recounted nodes firstLine steps final := by
    induction rest with
    | nil =>
      intro done session split proper recounted
      rw [List.append_nil] at split
      exact ⟨session, rfl, split ▸ recounted⟩
    | cons step rest ih =>
      intro done session split ⟨follows, proper⟩ recounted
      have regrouped : steps = (done ++ [step]) ++ rest := by simp [split]
      have room : firstLine.toNat + Writer.height (written (done ++ [step])) < UInt32.size := by
        rw [regrouped, written_append, Writer.height_append] at fits
        omega
      obtain ⟨after, applied, kept⟩ := recounted.step follows room
      obtain ⟨final, finished, last⟩ := ih (done ++ [step]) after regrouped proper kept
      refine ⟨final, ?_, last⟩
      simp only [run, bind, EStateM.bind, applied, finished]
  exact onwards steps [] _ rfl proper (.new nodes firstLine)

theorem Recounted.lines {nodes : Array Node} {firstLine : UInt32} {done : List Step}
    {session : Session} (recounted : Recounted nodes firstLine done session) :
    session.writer.lines = (written done).flatMap Writer.statementLines := by
  rw [Writer.lines_eq, recounted.statements, List.flatMap_map]
  rfl

/-- If scopes are opened and closed in any order and there are line numbers enough for all that is
written, the run succeeds. For every record, the lines of its output block in the rendered text are
those of the statements that were written while its scope was open, in order, and the length of the
block is their number. Every scope that is closed has such a record. -/
theorem output_block_selects_written_lines {nodes : Array Node} {firstLine : UInt32}
    {steps : List Step} (proper : Proper nodes [] steps)
    (fits : firstLine.toNat + Writer.height (written steps) < UInt32.size) :
    ∃ final, run steps (.new nodes true firstLine) = .ok () final ∧
      (∀ number, .closeScope number ∈ steps →
        ∃ entry ∈ final.tracker.recorded.entries, entry.order = number) ∧
      ∀ entry ∈ final.tracker.recorded.entries, ∃ before inside,
        Divides steps entry.order before inside ∧
        firstLine.toNat ≤ entry.mapping.output.start.line.toNat ∧
        final.writer.linesOf firstLine entry.mapping.output =
          (written inside).flatMap Writer.statementLines ∧
        entry.mapping.output.length = ((written inside).flatMap Writer.statementLines).length := by
  obtain ⟨final, finished, recounted⟩ := run_recounted proper fits
  refine ⟨final, finished, fun number => recounted.kept, ?_⟩
  intro entry member
  obtain ⟨before, inside, divides, first, last⟩ := recounted.recorded entry member
  have length : entry.mapping.output.length =
      ((written inside).flatMap Writer.statementLines).length := by
    rw [written_append, Writer.height_append] at last
    rw [← Writer.height_eq_length, OutputBlock.length]
    omega
  refine ⟨before, inside, divides, by omega, ?_, length⟩
  obtain ⟨-, node, after, split⟩ := divides
  have passed : written steps = written before ++ (written inside ++ written after) := by
    simp [split, written]
  have skipped : entry.mapping.output.start.line.toNat - firstLine.toNat =
      ((written before).flatMap Writer.statementLines).length := by
    rw [← Writer.height_eq_length]
    omega
  rw [Writer.linesOf, recounted.lines, passed, length, skipped, List.flatMap_append,
    List.drop_left, List.flatMap_append, List.take_left]

/-- The lines that the records of a finished run select. -/
def selectedLines (firstLine : UInt32) : EStateM.Result Fault Session Unit → List (List String)
  | .ok _ final => final.tracker.recorded.entries.map fun entry =>
      final.writer.linesOf firstLine entry.mapping.output
  | .error _ _ => []

/-- Two scopes that overlap without being nested. The statements end in line breaks, hold blank lines
and a carriage return, or have no text at all. -/
def overlapSteps : List Step :=
  [.openScope 0 false, .write ["a();\n\nb();\n\n"], .openScope 0 false, .write ["", "\n\n", "c();\r\nd();"],
    .closeScope 0, .write ["e();"], .closeScope 1]

theorem output_block_selects_overlap :
    Proper #[.bare default] [] overlapSteps ∧
    ∃ final, run overlapSteps (.new #[.bare default] true 7) = .ok () final ∧
      (final.tracker.recorded.entries.map fun entry =>
        final.writer.linesOf 7 entry.mapping.output) =
          [["a();", "", "b();", "", "", "c();\r", "d();"], ["", "", "c();\r", "d();", "e();"]] ∧
      ∀ entry ∈ final.tracker.recorded.entries, ∃ before inside,
        Divides overlapSteps entry.order before inside ∧
        final.writer.linesOf 7 entry.mapping.output =
          (written inside).flatMap Writer.statementLines := by
  have proper : Proper #[.bare default] [] overlapSteps := by decide
  have fits : (7 : UInt32).toNat + Writer.height (written overlapSteps) < UInt32.size := by decide
  obtain ⟨final, finished, -, selected⟩ := output_block_selects_written_lines proper fits
  have texts : selectedLines 7 (run overlapSteps (.new #[.bare default] true 7)) =
      [["a();", "", "b();", "", "", "c();\r", "d();"], ["", "", "c();\r", "d();", "e();"]] := by
    decide +kernel
  rw [finished] at texts
  refine ⟨proper, final, finished, texts, ?_⟩
  intro entry member
  obtain ⟨before, inside, divides, -, lines, -⟩ := selected entry member
  exact ⟨before, inside, divides, lines⟩

end Session

end Scribe
