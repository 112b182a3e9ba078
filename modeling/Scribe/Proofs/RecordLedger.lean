import Mathlib.Data.List.Forall2
import Scribe.Proofs.LineAttribution
import Scribe.Proofs.ScopeHistory

/-! The records of a whole run. However scopes are opened and closed, and whenever records are handed
out, every closed scope has exactly one record, in the list that was current when it was closed. -/

namespace Scribe

namespace MappingList

theorem perm_insertEntry (entry : MappingEntry) (entries : List MappingEntry) :
    (insertEntry entry entries).Perm (entries ++ [entry]) := by
  induction entries with
  | nil => exact List.Perm.refl _
  | cons first rest ih =>
    simp only [insertEntry]
    split
    · exact ih.cons first
    · exact (List.perm_append_singleton entry (first :: rest)).symm

end MappingList

namespace Session

/-- The record that a scope would leave if it were closed now, with the number of the scope. -/
def numberedRecord? (session : Session) (number : Nat) : Option MappingEntry :=
  (session.closingRecord? number).map (⟨number, ·⟩)

/-- The record that a step commits. A visit that crashes has written what it could before its scope is
closed. -/
def committed (session : Session) : Step → List MappingEntry
  | .closeScope number => (session.numberedRecord? number).toList
  | .crash node text _ =>
    let crashed := (session.after (.openScope node false)).after (.write [text])
    (crashed.numberedRecord? session.scopes.size).toList
  | _ => []

/-- The lists of a run: those that are handed out, in order, and the one that is left at its end. -/
def lists (session : Session) : List Step → List MappingList
  | [] => [session.tracker.recorded]
  | .take :: rest => session.tracker.take.1 :: (session.after .take).lists rest
  | step :: rest => (session.after step).lists rest

/-- The records that a run commits in the order of closing, divided where records are handed out. -/
def commits (session : Session) : List Step → List (List MappingEntry)
  | [] => [[]]
  | .take :: rest => [] :: (session.after .take).commits rest
  | step :: rest => ((session.after step).commits rest).modifyHead (session.committed step ++ ·)

/-- What a step that does not hand records out can do to tracker and scopes, with the records that it
commits. -/
inductive Change : Session → List MappingEntry → Session → Prop where
  | frame {session after : Session} (tracker : after.tracker = session.tracker)
      (scopes : after.scopes = session.scopes) : Change session [] after
  | openAt {session : Session} {node : Nat} {source : Position} {byHand : Bool} :
      Change session [] (session.openAt node source byHand)
  | commit {session : Session} {number : Nat} {openScope : OpenScope} {node : Node}
      (held : session.scopes[number]? = some (some openScope)) :
      Change session
        [⟨number, Tracker.record openScope.scope node.span.finish (session.line openScope.byHand)⟩]
        (session.commit number openScope node)
  | trans {session middle after : Session} {first second : List MappingEntry}
      (before : Change session first middle) (afterwards : Change middle second after) :
      Change session (first ++ second) after

theorem change_openScope (session : Session) (node : Nat) (byHand : Bool) :
    Change session [] (session.after (.openScope node byHand)) := by
  cases placed : session.nodes[node]? with
  | none =>
    rw [after_openScope_unknown placed]
    exact .frame rfl rfl
  | some found =>
    rw [after_openScope placed]
    exact .openAt

theorem change_write (session : Session) (statements : List String) :
    Change session [] (session.after (.write statements)) := by
  obtain ⟨writer, written⟩ := after_write session statements
  rw [written]
  exact .frame rfl rfl

theorem change_closeScope (session : Session) (number : Nat) :
    Change session (session.committed (.closeScope number)) (session.after (.closeScope number)) := by
  simp only [committed, numberedRecord?, closingRecord?, after, stateAfter, apply, close, endScope,
    leave_close]
  cases held : session.scopes[number]? with
  | none => exact .frame rfl rfl
  | some place =>
    cases place with
    | none => exact .frame rfl rfl
    | some openScope =>
      cases known : session.nodes[openScope.node]? with
      | none =>
        simp only [known]
        exact .frame rfl rfl
      | some node =>
        simp only [known]
        exact .commit held

theorem change_crash (session : Session) (node : Nat) (text message : String) :
    Change session (session.committed (.crash node text message))
      (session.after (.crash node text message)) := by
  cases known : session.nodes[node]? with
  | none =>
    have nothing : session.committed (.crash node text message) = [] := by
      obtain ⟨writer, written⟩ := after_write session [text]
      simp [committed, after_openScope_unknown known, written, numberedRecord?, closingRecord?]
    rw [nothing, after_crash_unknown text message known]
    exact .frame rfl rfl
  | some found =>
    have opened := change_openScope session node false
    have written := opened.trans (change_write (session.after (.openScope node false)) [text])
    have closed := written.trans (change_closeScope _ session.scopes.size)
    rw [List.nil_append, List.nil_append, ← after_crash text message known] at closed
    simpa only [committed] using closed

theorem change_after (session : Session) {step : Step} (keeps : step ≠ .take) :
    Change session (session.committed step) (session.after step) := by
  cases step with
  | openScope node byHand => exact change_openScope session node byHand
  | closeScope number => exact change_closeScope session number
  | crash node text message => exact change_crash session node text message
  | write statements => exact change_write session statements
  | setLine line => exact .frame rfl rfl
  | setSpan node span =>
    obtain ⟨nodes, moved, -⟩ := after_setSpan session node span
    rw [moved]
    exact .frame rfl rfl
  | take => exact absurd rfl keeps

theorem count_openAt (session : Session) (node : Nat) (source : Position) (byHand : Bool) :
    (session.openAt node source byHand).scopes.countP Option.isSome =
      session.scopes.countP Option.isSome + 1 := by
  simp [Session.openAt]

theorem count_commit {session : Session} {number : Nat} {openScope : OpenScope} (node : Node)
    (held : session.scopes[number]? = some (some openScope)) :
    (session.commit number openScope node).scopes.countP Option.isSome =
      session.scopes.countP Option.isSome - 1 := by
  obtain ⟨inside, found⟩ := Array.getElem?_eq_some_iff.mp held
  simp [Session.commit, Array.setIfInBounds, inside, Array.countP_set, found]

/-- The books of a tracker are in order: its counters agree with the scopes, and its records are those
of closed scopes in opening order, none of them inverted. -/
structure Consistent (session : Session) : Prop extends Numbered session where
  depth : session.tracker.depth = session.scopes.countP Option.isSome
  upright : ∀ entry ∈ session.tracker.recorded.entries, entry.mapping.output.isInverted = false

theorem Consistent.new (nodes : Array Node) (enabled : Bool) (firstLine : UInt32) :
    Consistent (.new nodes enabled firstLine) where
  toNumbered := .new nodes enabled firstLine
  depth := rfl
  upright entry member := by cases member

theorem Consistent.take {session : Session} (consistent : Consistent session) :
    Consistent (session.after .take) where
  toNumbered := consistent.toNumbered.transition .take
  depth := consistent.depth
  upright entry member := by cases member

theorem Consistent.change {session after : Session} {records : List MappingEntry}
    (consistent : Consistent session) (change : Change session records after) : Consistent after := by
  induction change with
  | frame tracker scopes =>
    refine ⟨⟨?_, fun held => consistent.places (scopes ▸ held), ?_, ?_⟩, ?_, ?_⟩
    · rw [tracker, scopes, consistent.opened]
    · simpa only [tracker] using consistent.ordered
    · simpa only [tracker, scopes] using consistent.closed
    · rw [tracker, scopes, consistent.depth]
    · simpa only [tracker] using consistent.upright
  | openAt =>
    refine ⟨consistent.toNumbered.openAt _ _ _, ?_, consistent.upright⟩
    rw [count_openAt, ← consistent.depth]
    rfl
  | commit held =>
    refine ⟨consistent.toNumbered.commit held _, ?_, ?_⟩
    · rw [count_commit _ held, ← consistent.depth]
      rfl
    · intro entry member
      rcases mem_recorded_commit member with rfl | member
      · exact Tracker.record_upright _ _ _
      · exact consistent.upright entry member
  | trans before afterwards ihBefore ihAfterwards => exact ihAfterwards (ihBefore consistent)

theorem Change.enabled {session after : Session} {records : List MappingEntry}
    (change : Change session records after) : after.tracker.enabled = session.tracker.enabled := by
  induction change with
  | frame tracker scopes => rw [tracker]
  | openAt => rfl
  | commit held => rfl
  | trans before afterwards ihBefore ihAfterwards => exact ihAfterwards.trans ihBefore

/-- The list takes up what is committed and loses nothing. -/
theorem Change.recorded {session after : Session} {records : List MappingEntry}
    (change : Change session records after) (consistent : Consistent session)
    (enabled : session.tracker.enabled = true) :
    after.tracker.recorded.entries.Perm (session.tracker.recorded.entries ++ records) := by
  induction change with
  | frame tracker scopes => simp [tracker]
  | openAt => simp [Session.openAt, Tracker.openScope]
  | commit held =>
    simp only [Session.commit, Tracker.closeScope, enabled, if_true, MappingList.insert,
      consistent.places held]
    exact MappingList.perm_insertEntry _ _
  | trans before afterwards ihBefore ihAfterwards =>
    have first := ihBefore consistent enabled
    have second := ihAfterwards (consistent.change before) (before.enabled.trans enabled)
    rw [← List.append_assoc]
    exact second.trans (first.append_right _)

theorem Change.closed {session after : Session} {records : List MappingEntry}
    (change : Change session records after) (number : Nat) :
    after.scopes[number]? = some none ↔
      session.scopes[number]? = some none ∨ number ∈ records.map (·.order) := by
  induction change with
  | frame tracker scopes => simp [scopes]
  | @openAt session node source byHand =>
    rw [scopes_openAt]
    split
    next newest => simp [newest]
    next => simp
  | commit held =>
    rw [scopes_commit (IsOpen.lt_size ⟨_, held⟩)]
    split
    next same => simp [same]
    next different => simp [Ne.symm different]
  | trans before afterwards ihBefore ihAfterwards =>
    rw [ihAfterwards, ihBefore, List.map_append, List.mem_append, or_assoc]

/-- Only open scopes are closed, and none of them twice. -/
theorem Change.fresh {session after : Session} {records : List MappingEntry}
    (change : Change session records after) :
    (records.map (·.order)).Nodup ∧
      ∀ number ∈ records.map (·.order), session.scopes[number]? ≠ some none := by
  induction change with
  | frame tracker scopes => simp
  | openAt => simp
  | commit held => simp [held]
  | trans before afterwards ihBefore ihAfterwards =>
    rw [List.map_append, List.nodup_append]
    refine ⟨⟨ihBefore.1, ihAfterwards.1, ?_⟩, ?_⟩
    · intro number early other late same
      subst same
      exact ihAfterwards.2 number late ((before.closed number).mpr (Or.inr early))
    · intro number member closed
      rcases List.mem_append.mp member with early | late
      · exact ihBefore.2 number early closed
      · exact ihAfterwards.2 number late ((before.closed number).mpr (Or.inl closed))

theorem lists_cons {session : Session} {step : Step} {rest : List Step} (keeps : step ≠ .take) :
    session.lists (step :: rest) = (session.after step).lists rest := by
  rw [lists]
  exact keeps

theorem commits_cons {session : Session} {step : Step} {rest : List Step} (keeps : step ≠ .take) :
    session.commits (step :: rest) =
      ((session.after step).commits rest).modifyHead (session.committed step ++ ·) := by
  rw [commits]
  exact keeps

theorem commits_ne_nil (session : Session) (steps : List Step) : session.commits steps ≠ [] := by
  induction steps generalizing session with
  | nil => simp [commits]
  | cons step rest ih =>
    by_cases taken : step = .take
    · simp [taken, commits]
    · simp [commits_cons taken, ih]

/-- The list holds the given records in opening order. -/
def Holds (list : MappingList) (records : List MappingEntry) : Prop :=
  list.sequence.Pairwise (· < ·) ∧ list.entries.Perm records

private theorem modifyHead_nil_append (divided : List (List MappingEntry)) :
    divided.modifyHead ([] ++ ·) = divided := by
  cases divided <;> rfl

theorem Holds.of_perm {lists : List MappingList} {divided : List (List MappingEntry)}
    {first second : List MappingEntry} (perm : first.Perm second)
    (holds : List.Forall₂ Holds lists (divided.modifyHead (first ++ ·))) :
    List.Forall₂ Holds lists (divided.modifyHead (second ++ ·)) := by
  cases divided with
  | nil => exact holds
  | cons records rest =>
    obtain ⟨list, others, ⟨ordered, same⟩, later, rfl⟩ := List.forall₂_cons_right_iff.mp holds
    exact .cons ⟨ordered, same.trans (perm.append_right records)⟩ later

theorem Consistent.increasing {session : Session} (consistent : Consistent session) :
    session.tracker.recorded.sequence.Pairwise (· < ·) :=
  List.pairwise_map.mpr consistent.ordered

/-- The first list also holds the records that were there before the run. -/
theorem lists_hold {session : Session} (consistent : Consistent session)
    (enabled : session.tracker.enabled = true) (steps : List Step) :
    List.Forall₂ Holds (session.lists steps)
      ((session.commits steps).modifyHead (session.tracker.recorded.entries ++ ·)) := by
  induction steps generalizing session with
  | nil =>
    refine .cons ⟨consistent.increasing, ?_⟩ .nil
    simp
  | cons step rest ih =>
    by_cases taken : step = .take
    · subst taken
      refine .cons ⟨consistent.increasing, ?_⟩ ?_
      · simp [Tracker.take]
      · have later := ih consistent.take enabled
        have emptied : (session.after .take).tracker.recorded.entries = [] := rfl
        rw [emptied, modifyHead_nil_append] at later
        exact later
    -- What the step commits is there before the rest of the run, so it joins the first list.
    · have change := session.change_after taken
      have later := ih (consistent.change change) (change.enabled.trans enabled)
      rw [lists_cons taken, commits_cons taken, List.modifyHead_modifyHead]
      have extended := Holds.of_perm (change.recorded consistent enabled) later
      simpa only [List.append_assoc, Function.comp_def] using extended

theorem commits_closed (session : Session) (steps : List Step) :
    ((session.commits steps).flatten.map (·.order)).Nodup ∧
    (∀ number ∈ (session.commits steps).flatten.map (·.order),
      session.scopes[number]? ≠ some none) ∧
    ∀ number, (session.perform steps).scopes[number]? = some none ↔
      session.scopes[number]? = some none ∨
        number ∈ (session.commits steps).flatten.map (·.order) := by
  induction steps generalizing session with
  | nil => simp [commits, perform]
  | cons step rest ih =>
    obtain ⟨distinct, unclosed, closed⟩ := ih (session.after step)
    by_cases taken : step = .take
    · subst taken
      exact ⟨distinct, unclosed, closed⟩
    · have change := session.change_after taken
      obtain ⟨distinctNow, unclosedNow⟩ := change.fresh
      have divided : (session.commits (step :: rest)).flatten =
          session.committed step ++ ((session.after step).commits rest).flatten := by
        rw [commits_cons taken]
        obtain ⟨records, others, split⟩ :=
          List.exists_cons_of_ne_nil (commits_ne_nil (session.after step) rest)
        simp [split]
      rw [divided, List.map_append, List.nodup_append]
      refine ⟨⟨distinctNow, distinct, ?_⟩, ?_, ?_⟩
      · intro number now other later same
        subst same
        exact unclosed number later ((change.closed number).mpr (Or.inr now))
      · intro number member closedBefore
        rcases List.mem_append.mp member with now | later
        · exact unclosedNow number now closedBefore
        · exact unclosed number later ((change.closed number).mpr (Or.inl closedBefore))
      · intro number
        rw [List.mem_append, ← or_assoc, ← change.closed number]
        exact closed number

theorem Holds.perm_sequence {lists : List MappingList} {divided : List (List MappingEntry)}
    (holds : List.Forall₂ Holds lists divided) :
    (lists.flatMap (·.sequence)).Perm (divided.flatten.map (·.order)) := by
  induction holds with
  | nil => exact List.Perm.refl _
  | cons first rest ih =>
    rw [List.flatMap_cons, List.flatten_cons, List.map_append]
    exact (first.2.map (·.order)).append ih

theorem Consistent.perform {session : Session} (consistent : Consistent session)
    (steps : List Step) : Consistent (session.perform steps) := by
  induction steps generalizing session with
  | nil => exact consistent
  | cons step rest ih =>
    by_cases taken : step = .take
    · subst taken
      exact ih consistent.take
    · exact ih (consistent.change (session.change_after taken))

theorem Consistent.lt_size {session : Session} (consistent : Consistent session) {number : Nat}
    (member : number ∈ session.tracker.recorded.sequence) : number < session.scopes.size := by
  obtain ⟨entry, recorded, rfl⟩ := List.mem_map.mp member
  exact (Array.getElem?_eq_some_iff.mp (consistent.closed entry recorded)).1

/-- Whatever is done in whatever order, the tracker's books stay consistent. A record goes to the point of
both lists, of numbers and of mappings, that divides the earlier scopes from the later ones. Scopes are opened
and closed as the steps say. The lists that were handed out and the one that is left hold the records that were
committed while they were current, as they were committed and in opening order, and over all lists every closed
scope has exactly one record. -/
theorem closed_scopes_recorded_once (nodes : Array Node) (firstLine : UInt32) (steps : List Step) :
    let start := Session.new nodes true firstLine
    let final := start.perform steps
    let current := final.tracker.recorded
    (current.mappings.length = current.sequence.length ∧ current.sequence.Pairwise (· < ·) ∧
      (∀ number ∈ current.sequence, number < final.scopes.size) ∧
      final.tracker.opened = final.scopes.size ∧
      final.tracker.depth = final.scopes.countP Option.isSome ∧
      ∀ mapping ∈ current.mappings, mapping.output.isInverted = false) ∧
    (∀ order mapping, ∃ point, MappingList.PartitionPoint current.sequence order point ∧
      (current.insert order mapping).sequence =
        current.sequence.take point ++ order :: current.sequence.drop point ∧
      (current.insert order mapping).mappings =
        current.mappings.take point ++ mapping :: current.mappings.drop point) ∧
    (final.scopes.size = opened nodes.size steps ∧
      ∀ number, final.scopes[number]? = some none ↔ ClosedBy nodes.size steps number) ∧
    List.Forall₂ Holds (start.lists steps) (start.commits steps) ∧
    ((start.lists steps).flatMap (·.sequence)).Nodup ∧
    ∀ number, number ∈ (start.lists steps).flatMap (·.sequence) ↔
      final.scopes[number]? = some none := by
  intro start final current
  have consistent : Consistent final := (Consistent.new nodes true firstLine).perform steps
  have recalled : Recalled nodes.size steps final := recalled_perform nodes true firstLine steps
  have held : List.Forall₂ Holds (start.lists steps) (start.commits steps) := by
    have balanced := lists_hold (Consistent.new nodes true firstLine) rfl steps
    have unused : (Session.new nodes true firstLine).tracker.recorded.entries = [] := rfl
    rw [unused, modifyHead_nil_append] at balanced
    exact balanced
  obtain ⟨distinct, -, closed⟩ := commits_closed start steps
  have numbers := Holds.perm_sequence held
  refine ⟨⟨?_, consistent.increasing, fun number => consistent.lt_size, consistent.opened,
    consistent.depth, ?_⟩, ?_, ⟨recalled.size, recalled.closed⟩, held, numbers.nodup_iff.mpr distinct, ?_⟩
  · simp [MappingList.mappings, MappingList.sequence]
  · intro mapping member
    obtain ⟨entry, recorded, rfl⟩ := List.mem_map.mp member
    exact consistent.upright entry recorded
  · intro order mapping
    obtain ⟨point, divides⟩ := MappingList.exists_partitionPoint consistent.increasing order
    exact ⟨point, divides, divides.insert mapping⟩
  · intro number
    have unopened : start.scopes[number]? ≠ some none := by simp [start, Session.new]
    rw [numbers.mem_iff, closed number]
    exact (or_iff_right unopened).symm

/-- Records are handed out while the first scope is still open; its record goes to the front of the
next list. -/
example :
    ((Session.new #[.bare default] true 1).lists
      [.openScope 0 false, .openScope 0 false, .closeScope 1, .take, .openScope 0 false,
        .closeScope 2, .closeScope 0]).map (·.sequence) = [[1], [0, 2]] := by
  decide

/-- The same with steps in between that ask for a closed scope and for an unknown node, a visit that crashes,
and a scope that stays open. -/
def untidySteps : List Step :=
  [.openScope 0 false, .openScope 0 false, .closeScope 1, .take, .closeScope 1, .openScope 0 false,
    .openScope 7 false, .closeScope 2, .closeScope 0, .crash 0 "a();" "broken", .openScope 0 false]

theorem untidy_steps_recorded_once :
    ((Session.new #[.bare default] true 1).lists untidySteps).map (·.sequence) = [[1], [0, 2, 3]] ∧
    ((Session.new #[.bare default] true 1).perform untidySteps).tracker.depth = 1 ∧
    opened 1 untidySteps = 5 ∧ ClosedBy 1 untidySteps 0 ∧ ¬ ClosedBy 1 untidySteps 4 ∧
    List.Forall₂ Holds ((Session.new #[.bare default] true 1).lists untidySteps)
      ((Session.new #[.bare default] true 1).commits untidySteps) := by
  obtain ⟨⟨-, -, -, -, depth, -⟩, -, ⟨size, closed⟩, held, -, recorded⟩ :=
    closed_scopes_recorded_once #[.bare default] 1 untidySteps
  have sequences : ((Session.new #[.bare default] true 1).lists untidySteps).map (·.sequence) =
      [[1], [0, 2, 3]] := by
    decide
  have numbers : ((Session.new #[.bare default] true 1).lists untidySteps).flatMap (·.sequence) =
      [1, 0, 2, 3] := by
    rw [List.flatMap_def, sequences]
    rfl
  rw [numbers] at recorded
  refine ⟨sequences, depth.trans (by decide), size.symm.trans (by decide), ?_, ?_, held⟩
  · exact (closed 0).mp ((recorded 0).mp (by decide))
  · intro four
    exact absurd ((recorded 4).mpr ((closed 4).mpr four)) (by decide)

end Session

end Scribe
