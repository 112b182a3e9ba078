import Scribe.Mapping.Session
import Scribe.Proofs.MappingRecords

/-! Whole runs of a session. `Transition` says once what each step can do, so that an invariant is
proved by one case analysis and then holds throughout every run. -/

namespace Scribe.Session

/-- Applies the steps one after another; the first fault ends the run. -/
def run : List Step → EStateM Fault Session Unit
  | [] => pure ()
  | step :: rest => do
    apply step
    run rest

/-- While `steps` are run from `start`, `step` is applied in the state `session`. -/
def Applies (start : Session) (steps : List Step) (step : Step) (session : Session) : Prop :=
  ∃ before after, steps = before ++ step :: after ∧ run before start = .ok () session

/-- The session after an open scope was closed. -/
def commit (session : Session) (number : Nat) (openScope : OpenScope) (node : Node) : Session :=
  { session with
    tracker := session.tracker.closeScope openScope.scope node.span.finish
      (session.line openScope.byHand)
    scopes := session.scopes.setIfInBounds number none }

theorem leave_close (session : Session) (number : Nat) (openScope : OpenScope) (node : Node) :
    session.leave ScopeGuard.close number openScope node = session.commit number openScope node := by
  rw [leave, ScopeGuard.close_opened, commit]

theorem leave_release (session : Session) (number : Nat) (openScope : OpenScope) (node : Node) :
    session.leave ScopeGuard.release number openScope node = session.commit number openScope node := by
  rw [leave, ScopeGuard.release_opened, commit]

theorem close_eq {number : Nat} {session : Session} {openScope : OpenScope} {node : Node}
    (held : session.scopes[number]? = some (some openScope))
    (known : session.nodes[openScope.node]? = some node) :
    close number session = .ok () (session.commit number openScope node) := by
  simp only [close, endScope, held, known, leave_close]

/-- A scope whose guard is given up is closed like any other. -/
theorem release_eq_close (number : Nat) : release number = close number := by
  funext session
  simp only [release, close, endScope, leave_close, leave_release]

/-- Everything that a step without a fault can do. A visit that crashes always ends with one. -/
inductive Transition : Session → Step → Session → Prop where
  | openScope {session : Session} {node : Nat} {byHand : Bool} {found : Node}
      (known : session.nodes[node]? = some found) :
      Transition session (.openScope node byHand) (session.openAt node found.span.start byHand)
  | closeScope {session : Session} {number : Nat} {openScope : OpenScope} {node : Node}
      (held : session.scopes[number]? = some (some openScope))
      (known : session.nodes[openScope.node]? = some node) :
      Transition session (.closeScope number) (session.commit number openScope node)
  | write {session : Session} {statements : List String} {writer : Writer}
      (written : Writer.writeAll statements session.writer = .ok () writer) :
      Transition session (.write statements) { session with writer }
  | setLine {session : Session} {line : UInt32} :
      Transition session (.setLine line) { session with handLine := line }
  | setSpan {session : Session} {node : Nat} {old span : Span}
      (known : session.nodes[node]? = some (.bare old)) :
      Transition session (.setSpan node span)
        { session with nodes := session.nodes.setIfInBounds node (.bare span) }
  | take {session : Session} :
      Transition session .take { session with tracker := session.tracker.take.2 }

private theorem close_transition {number : Nat} {session after : Session}
    (closed : close number session = .ok () after) :
    Transition session (.closeScope number) after := by
  simp only [close, endScope, leave_close] at closed
  split at closed
  next openScope held =>
    split at closed
    next node known =>
      cases closed
      exact .closeScope held known
    next => cases closed
  next => cases closed

theorem crash_faults (node : Nat) (text message : String) (session after : Session) :
    apply (.crash node text message) session ≠ .ok () after := by
  intro applied
  simp only [apply] at applied
  split at applied
  next => cases applied
  next found known =>
    split at applied
    next reached finished =>
      -- The visit ends with its message or with an overflow, never normally.
      simp only [crashAfter, bind, EStateM.bind] at finished
      split at finished
      next => cases finished
      next => cases finished
    next => split at applied <;> cases applied

theorem Transition.of_apply {step : Step} {session after : Session}
    (applied : apply step session = .ok () after) : Transition session step after := by
  cases step with
  | openScope node byHand =>
    simp only [apply] at applied
    split at applied
    next found known => cases applied; exact .openScope known
    next => cases applied
  | closeScope number => exact close_transition applied
  | crash node text message => exact absurd applied (crash_faults node text message session after)
  | write statements =>
    simp only [apply, writeAll] at applied
    split at applied
    next writer written => cases applied; exact .write written
    next => cases applied
  | setLine line => cases applied; exact .setLine
  | setSpan node span =>
    simp only [apply] at applied
    split at applied
    next old known => cases applied; exact .setSpan known
    next => cases applied
  | take => cases applied; exact .take

theorem run_append (first second : List Step) (start : Session) {final : Session} :
    run (first ++ second) start = .ok () final ↔
      ∃ session, run first start = .ok () session ∧ run second session = .ok () final := by
  induction first generalizing start with
  | nil =>
    constructor
    · intro finished
      exact ⟨start, rfl, finished⟩
    · rintro ⟨session, reached, finished⟩
      cases reached
      exact finished
  | cons step rest ih =>
    simp only [List.cons_append, run, bind, EStateM.bind]
    cases apply step start with
    | ok value after => exact ih after
    | error fault after => simp

theorem run_singleton (step : Step) (start : Session) :
    run [step] start = apply step start := by
  simp only [run, bind, EStateM.bind]
  cases apply step start <;> rfl

theorem applies_cons {start session : Session} {first step : Step} {rest : List Step} :
    Applies start (first :: rest) step session ↔
      (step = first ∧ session = start) ∨
        ∃ after, apply first start = .ok () after ∧ Applies after rest step session := by
  constructor
  · intro ⟨before, after, split, reached⟩
    cases before with
    | nil =>
      cases split
      cases reached
      exact Or.inl ⟨rfl, rfl⟩
    | cons head tail =>
      cases split
      obtain ⟨next, applied, reached⟩ := (run_append [first] tail start).mp reached
      exact Or.inr ⟨next, (run_singleton first start).symm.trans applied, tail, after, rfl, reached⟩
  · intro comes
    rcases comes with ⟨rfl, rfl⟩ | ⟨next, applied, before, after, rfl, reached⟩
    · exact ⟨[], rest, rfl, rfl⟩
    · exact ⟨first :: before, after, rfl,
        (run_append [first] before start).mpr ⟨next, (run_singleton first start).trans applied, reached⟩⟩

theorem applies_append_singleton {start session : Session} {steps : List Step} {last step : Step} :
    Applies start (steps ++ [last]) step session ↔
      Applies start steps step session ∨ (step = last ∧ run steps start = .ok () session) := by
  constructor
  · rintro ⟨before, after, split, reached⟩
    rcases List.eq_nil_or_concat after with rfl | ⟨rest, final, rfl⟩
    · obtain ⟨rfl, same⟩ := List.append_inj' split rfl
      cases same
      exact Or.inr ⟨rfl, reached⟩
    · rw [List.concat_eq_append, ← List.cons_append, ← List.append_assoc] at split
      obtain ⟨rfl, -⟩ := List.append_inj' split rfl
      exact Or.inl ⟨before, rest, rfl, reached⟩
  · rintro (⟨before, after, rfl, reached⟩ | ⟨rfl, reached⟩)
    · exact ⟨before, after ++ [last], by simp, reached⟩
    · exact ⟨steps, [], rfl, reached⟩

/-- What holds at the start and is kept by every step of a run holds at its end. The steps done so far
take part, so that an invariant may speak of the past. -/
theorem run_induction {start final : Session} {steps : List Step}
    (invariant : List Step → Session → Prop) (initial : invariant [] start)
    (kept : ∀ done session step after, Applies start steps step session →
      run done start = .ok () session → invariant done session → Transition session step after →
      invariant (done ++ [step]) after)
    (finished : run steps start = .ok () final) : invariant steps final := by
  have onwards (rest : List Step) : ∀ done session, steps = done ++ rest →
      run done start = .ok () session → invariant done session →
      run rest session = .ok () final → invariant steps final := by
    induction rest with
    | nil =>
      intro done session split reached holds ends
      cases ends
      rw [split, List.append_nil]
      exact holds
    | cons step rest ih =>
      intro done session split reached holds ends
      obtain ⟨after, applied, ends⟩ := (run_append [step] rest session).mp ends
      have moved := Transition.of_apply ((run_singleton step session).symm.trans applied)
      apply ih (done ++ [step]) after (by simp [split])
      · exact (run_append done [step] start).mpr ⟨session, reached, applied⟩
      · exact kept done session step after ⟨done, rest, split, reached⟩ reached holds moved
      · exact ends
  exact onwards steps [] start rfl rfl initial finished

def IsOpen (session : Session) (number : Nat) : Prop :=
  ∃ openScope, session.scopes[number]? = some (some openScope)

theorem IsOpen.lt_size {session : Session} {number : Nat} (isOpen : session.IsOpen number) :
    number < session.scopes.size := by
  obtain ⟨openScope, held⟩ := isOpen
  exact (Array.getElem?_eq_some_iff.mp held).1

theorem scopes_openAt {session : Session} {node number : Nat} {source : Position} {byHand : Bool} :
    (session.openAt node source byHand).scopes[number]? =
      if number = session.scopes.size then
        some (some ⟨⟨session.tracker.opened, source, session.line byHand⟩, node, byHand⟩)
      else session.scopes[number]? :=
  Array.getElem?_push

theorem scopes_commit {session : Session} {number other : Nat} {openScope : OpenScope} {node : Node}
    (inside : number < session.scopes.size) :
    (session.commit number openScope node).scopes[other]? =
      if number = other then some none else session.scopes[other]? := by
  simp only [commit, Array.getElem?_setIfInBounds, inside, if_true]

theorem isOpen_openAt {session : Session} {node number : Nat} {source : Position} {byHand : Bool} :
    (session.openAt node source byHand).IsOpen number ↔
      number = session.scopes.size ∨ session.IsOpen number := by
  simp only [IsOpen, scopes_openAt]
  by_cases newest : number = session.scopes.size
  · simp [newest]
  · simp [newest]

theorem isOpen_commit {session : Session} {number other : Nat} {openScope : OpenScope} {node : Node}
    (inside : number < session.scopes.size) :
    (session.commit number openScope node).IsOpen other ↔ number ≠ other ∧ session.IsOpen other := by
  simp only [IsOpen, scopes_commit inside]
  by_cases same : number = other
  · simp [same]
  · simp [same]

/-- Scopes know their place in opening order, and the records are those of closed scopes, in that
order. This holds whatever the order in which scopes are closed. -/
structure Numbered (session : Session) : Prop where
  opened : session.tracker.opened = session.scopes.size
  places : ∀ {number : Nat} {openScope : OpenScope},
    session.scopes[number]? = some (some openScope) → openScope.scope.order = number
  ordered : MappingList.Ordered session.tracker.recorded.entries
  closed : ∀ entry ∈ session.tracker.recorded.entries, session.scopes[entry.order]? = some none

theorem Numbered.new (nodes : Array Node) (enabled : Bool) (firstLine : UInt32) :
    Numbered (.new nodes enabled firstLine) where
  opened := rfl
  places held := by simp [Session.new] at held
  ordered := List.Pairwise.nil
  closed entry member := by cases member

theorem Numbered.not_isOpen {session : Session} {entry : MappingEntry} (numbered : Numbered session)
    (member : entry ∈ session.tracker.recorded.entries) : ¬ session.IsOpen entry.order := by
  intro ⟨openScope, held⟩
  rw [numbered.closed entry member] at held
  cases held

theorem mem_recorded_commit {session : Session} {number : Nat} {openScope : OpenScope} {node : Node}
    {entry : MappingEntry}
    (member : entry ∈ (session.commit number openScope node).tracker.recorded.entries) :
    entry = ⟨openScope.scope.order,
      Tracker.record openScope.scope node.span.finish (session.line openScope.byHand)⟩ ∨
    entry ∈ session.tracker.recorded.entries := by
  simp only [commit, Tracker.closeScope] at member
  split at member
  · exact MappingList.mem_insertEntry.mp member
  · exact Or.inr member

theorem Numbered.openAt {session : Session} (numbered : Numbered session) (node : Nat)
    (source : Position) (byHand : Bool) : Numbered (session.openAt node source byHand) where
  opened := by
    simp only [Session.openAt, Tracker.openScope, Array.size_push, numbered.opened]
  places {number openScope} held := by
    rw [scopes_openAt] at held
    split at held
    next newest =>
      cases held
      exact numbered.opened.trans newest.symm
    next => exact numbered.places held
  ordered := numbered.ordered
  closed entry member := by
    have known := numbered.closed entry member
    have inside := (Array.getElem?_eq_some_iff.mp known).1
    rw [scopes_openAt, if_neg (Nat.ne_of_lt inside), known]

theorem Numbered.commit {session : Session} {number : Nat} {openScope : OpenScope}
    (numbered : Numbered session) (held : session.scopes[number]? = some (some openScope))
    (node : Node) : Numbered (session.commit number openScope node) where
  opened := by
    simp only [Session.commit, Tracker.closeScope, Array.size_setIfInBounds, numbered.opened]
  places {other openScope} kept := by
    rw [scopes_commit (IsOpen.lt_size ⟨_, held⟩)] at kept
    split at kept
    next => cases kept
    next => exact numbered.places kept
  ordered := by
    simp only [Session.commit, Tracker.closeScope]
    split
    next =>
      apply numbered.ordered.insertEntry
      intro other member same
      -- The scope is open, while every record belongs to a closed one.
      have closed := numbered.not_isOpen member
      rw [same, numbered.places held] at closed
      exact closed ⟨_, held⟩
    next => exact numbered.ordered
  closed entry member := by
    rw [scopes_commit (IsOpen.lt_size ⟨_, held⟩)]
    rcases mem_recorded_commit member with rfl | member
    · exact if_pos (numbered.places held).symm
    · rw [numbered.closed entry member, ite_self]

theorem Numbered.transition {session after : Session} {step : Step} (numbered : Numbered session)
    (moved : Transition session step after) : Numbered after := by
  cases moved with
  | openScope known => exact numbered.openAt _ _ _
  | closeScope held known => exact numbered.commit held _
  | write written => exact ⟨numbered.opened, numbered.places, numbered.ordered, numbered.closed⟩
  | setLine => exact ⟨numbered.opened, numbered.places, numbered.ordered, numbered.closed⟩
  | setSpan known => exact ⟨numbered.opened, numbered.places, numbered.ordered, numbered.closed⟩
  | take => exact ⟨numbered.opened, numbered.places, List.Pairwise.nil, by intro entry member; cases member⟩

end Scribe.Session
