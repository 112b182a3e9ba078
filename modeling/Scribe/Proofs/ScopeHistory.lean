import Mathlib.Data.List.Induction
import Scribe.Proofs.Exits
import Scribe.Proofs.SessionRuns

/-! The scopes of a run, told from its steps alone. A step for a known node opens one scope more. A scope is
closed by the first step that asks for it once it has been opened, or right away if its visit crashes. A step
that ends with a fault may be anywhere in between. -/

namespace Scribe.Session

/-- The state that a step leaves. A step that ends with a fault keeps what it has done until then. -/
def after (session : Session) (step : Step) : Session :=
  stateAfter (apply step) session

/-- Applies the steps one after another and goes on after faults. -/
def perform (session : Session) (steps : List Step) : Session :=
  steps.foldl after session

/-- The step opens a scope, if so many nodes are known. -/
def Step.opens (known : Nat) : Step → Bool
  | .openScope node _ => node < known
  | .crash node _ _ => node < known
  | _ => false

def opened (known : Nat) (steps : List Step) : Nat :=
  steps.countP (·.opens known)

/-- The step closes a scope when it comes after the steps `before`: it asks for the scope, which they have
opened, or it is a visit that crashes, and the scope is its own. -/
def Step.Closes (known : Nat) (before : List Step) (number : Nat) : Step → Prop
  | .closeScope asked => asked = number ∧ number < opened known before
  | .crash node _ _ => node < known ∧ number = opened known before
  | _ => False

def ClosedBy (known : Nat) (steps : List Step) (number : Nat) : Prop :=
  ∃ before step after, steps = before ++ step :: after ∧ step.Closes known before number

variable {known node number : Nat} {done : List Step} {session after : Session} {step : Step}

theorem opened_concat (known : Nat) (done : List Step) (step : Step) :
    opened known (done ++ [step]) = opened known done + if step.opens known then 1 else 0 := by
  rw [opened, List.countP_append, List.countP_singleton, opened]

theorem closedBy_concat :
    ClosedBy known (done ++ [step]) number ↔ ClosedBy known done number ∨ step.Closes known done number := by
  constructor
  · intro ⟨before, closing, later, split, closes⟩
    rcases List.eq_nil_or_concat later with rfl | ⟨rest, last, rfl⟩
    · obtain ⟨rfl, same⟩ := List.append_inj' split rfl
      cases same
      exact Or.inr closes
    · rw [List.concat_eq_append, ← List.cons_append, ← List.append_assoc] at split
      obtain ⟨rfl, -⟩ := List.append_inj' split rfl
      exact Or.inl ⟨before, closing, rest, rfl, closes⟩
  · intro closed
    rcases closed with ⟨before, closing, later, rfl, closes⟩ | closes
    · exact ⟨before, closing, later ++ [step], by simp, closes⟩
    · exact ⟨done, step, [], rfl, closes⟩

section Steps

variable {found : Node} {openScope : OpenScope}

theorem after_openScope (placed : session.nodes[node]? = some found) (byHand : Bool) :
    session.after (.openScope node byHand) = session.openAt node found.span.start byHand := by
  simp only [Session.after, stateAfter, apply, placed]

theorem after_openScope_unknown (missing : session.nodes[node]? = none) (byHand : Bool) :
    session.after (.openScope node byHand) = session := by
  simp only [Session.after, stateAfter, apply, missing]

theorem after_closeScope (held : session.scopes[number]? = some (some openScope))
    (placed : session.nodes[openScope.node]? = some found) :
    session.after (.closeScope number) = session.commit number openScope found := by
  simp only [Session.after, stateAfter, apply, close_eq held placed]

theorem after_closeScope_unheld (unheld : ∀ openScope, session.scopes[number]? ≠ some (some openScope)) :
    session.after (.closeScope number) = session := by
  simp only [Session.after, stateAfter, apply, close, endScope]

theorem after_write (session : Session) (statements : List String) :
    ∃ writer, session.after (.write statements) = { session with writer } := by
  simp only [Session.after, stateAfter, apply, writeAll]
  cases Writer.writeAll statements session.writer <;> exact ⟨_, rfl⟩

theorem after_setSpan (session : Session) (node : Nat) (span : Span) :
    ∃ nodes, session.after (.setSpan node span) = { session with nodes } ∧
      nodes.size = session.nodes.size := by
  simp only [Session.after, stateAfter, apply]
  cases session.nodes[node]? with
  | none => exact ⟨_, rfl, rfl⟩
  | some found =>
    cases found with
    | bare span => exact ⟨_, rfl, Array.size_setIfInBounds ..⟩
    | statement | parameter | declaration => exact ⟨_, rfl, rfl⟩

/-- A visit that crashes leaves what opening its scope, writing and closing the scope leave. -/
theorem after_crash (text message : String) (placed : session.nodes[node]? = some found) :
    session.after (.crash node text message) =
      ((session.after (.openScope node false)).after (.write [text])).after
        (.closeScope session.scopes.size) := by
  rw [after_openScope placed]
  simp only [Session.after, stateAfter, apply, placed, crashAfter, bind, EStateM.bind, release_eq_close]
  cases writeAll [text] (session.openAt node found.span.start false) with
  | ok value written =>
    have thrown : (throw (.abort message) : EStateM Fault Session Unit) written =
        .error (.abort message) written := rfl
    simp only [thrown]
    cases close session.scopes.size written <;> rfl
  | error fault written =>
    dsimp only
    cases close session.scopes.size written <;> rfl

theorem after_crash_unknown (text message : String) (missing : session.nodes[node]? = none) :
    session.after (.crash node text message) = session := by
  simp only [Session.after, stateAfter, apply, missing]

/-- The scope of a visit that crashes takes up its place and leaves it empty. -/
theorem scopes_crash (text message : String) (placed : session.nodes[node]? = some found) :
    (session.after (.crash node text message)).nodes = session.nodes ∧
      (session.after (.crash node text message)).scopes = session.scopes.push none := by
  obtain ⟨writer, written⟩ := after_write (session.openAt node found.span.start false) [text]
  rw [after_crash text message placed, after_openScope placed, written]
  have held : { session.openAt node found.span.start false with writer }.scopes[session.scopes.size]? =
      some (some ⟨⟨session.tracker.opened, found.span.start, session.line false⟩, node, false⟩) :=
    scopes_openAt.trans (if_pos rfl)
  rw [after_closeScope held placed]
  refine ⟨rfl, ?_⟩
  simp only [Session.commit, openAt, Array.setIfInBounds, Array.size_push, Nat.lt_add_one, dite_true,
    Array.set_push, Nat.lt_irrefl, dite_false]

end Steps

/-- What the steps done so far tell about the scopes of a session. -/
structure Recalled (known : Nat) (done : List Step) (session : Session) : Prop where
  nodes : session.nodes.size = known
  placed : ∀ {number : Nat} {openScope : OpenScope},
    session.scopes[number]? = some (some openScope) → openScope.node < known
  size : session.scopes.size = opened known done
  closed : ∀ number, session.scopes[number]? = some none ↔ ClosedBy known done number

namespace Recalled

theorem new (nodes : Array Node) (enabled : Bool) (firstLine : UInt32) :
    Recalled nodes.size [] (.new nodes enabled firstLine) where
  nodes := rfl
  placed held := by simp [Session.new] at held
  size := rfl
  closed number := by simp [Session.new, ClosedBy]

theorem exists_node (recalled : Recalled known done session) (inside : node < known) :
    ∃ found, session.nodes[node]? = some found :=
  ⟨_, Array.getElem?_eq_getElem (recalled.nodes ▸ inside)⟩

theorem no_node (recalled : Recalled known done session) (outside : ¬ node < known) :
    session.nodes[node]? = none := by
  rw [Array.getElem?_eq_none_iff, recalled.nodes]
  exact Nat.not_lt.mp outside

/-- A step that leaves all scopes alone opens none, and closes at most what is closed already. -/
theorem frame (recalled : Recalled known done session) (nodes : after.nodes.size = session.nodes.size)
    (scopes : after.scopes = session.scopes) (unopened : step.opens known = false)
    (closes : ∀ number, step.Closes known done number → session.scopes[number]? = some none) :
    Recalled known (done ++ [step]) after := by
  refine ⟨nodes.trans recalled.nodes, ?_, ?_, ?_⟩
  · intro number openScope held
    exact recalled.placed (scopes ▸ held)
  · rw [scopes, recalled.size, opened_concat, unopened]
    rfl
  · intro number
    rw [scopes, closedBy_concat, ← recalled.closed]
    exact ⟨Or.inl, fun closed => closed.elim id (closes number)⟩

/-- A step that opens a scope adds one place, which is empty if the scope is closed at once. -/
theorem push (recalled : Recalled known done session) {place : Option OpenScope}
    (nodes : after.nodes.size = session.nodes.size) (scopes : after.scopes = session.scopes.push place)
    (opens : step.opens known = true) (inside : ∀ openScope ∈ place, openScope.node < known)
    (closes : ∀ number, step.Closes known done number ↔ number = session.scopes.size ∧ place = none) :
    Recalled known (done ++ [step]) after := by
  refine ⟨nodes.trans recalled.nodes, ?_, ?_, ?_⟩
  · intro number openScope held
    rw [scopes, Array.getElem?_push] at held
    split at held
    next => exact inside openScope (Option.some.inj held)
    next => exact recalled.placed held
  · rw [scopes, Array.size_push, recalled.size, opened_concat, opens]
    rfl
  · intro number
    rw [scopes, Array.getElem?_push, closedBy_concat, ← recalled.closed, closes]
    split
    next newest => simp [newest]
    next older => simp [older]

theorem commit (recalled : Recalled known done session) {openScope : OpenScope}
    (held : session.scopes[number]? = some (some openScope)) (found : Node) :
    Recalled known (done ++ [.closeScope number]) (session.commit number openScope found) := by
  have size := IsOpen.lt_size ⟨_, held⟩
  refine ⟨recalled.nodes, ?_, ?_, ?_⟩
  · intro other otherScope kept
    rw [scopes_commit size] at kept
    split at kept
    next => cases kept
    next => exact recalled.placed kept
  · rw [Session.commit, Array.size_setIfInBounds, recalled.size, opened_concat]
    rfl
  · intro other
    rw [scopes_commit size, closedBy_concat, ← recalled.closed]
    split
    next same =>
      subst same
      exact iff_of_true rfl (Or.inr ⟨rfl, recalled.size ▸ size⟩)
    next different =>
      refine ⟨Or.inl, fun closed => closed.elim id ?_⟩
      intro closes
      exact absurd closes.1 different

theorem closeScope (recalled : Recalled known done session) (number : Nat) :
    Recalled known (done ++ [.closeScope number]) (session.after (.closeScope number)) := by
  cases place : session.scopes[number]? with
  | none =>
    rw [after_closeScope_unheld (by simp [place])]
    apply recalled.frame rfl rfl rfl
    intro other ⟨same, inside⟩
    subst same
    have outside := Array.getElem?_eq_none_iff.mp place
    rw [recalled.size] at outside
    exact absurd inside (Nat.not_lt.mpr outside)
  | some scope =>
    cases scope with
    | none =>
      rw [after_closeScope_unheld (by simp [place])]
      apply recalled.frame rfl rfl rfl
      intro other ⟨same, _⟩
      exact same ▸ place
    | some openScope =>
      obtain ⟨found, placed⟩ := recalled.exists_node (recalled.placed place)
      rw [after_closeScope place placed]
      exact recalled.commit place found

theorem openScope (recalled : Recalled known done session) (node : Nat) (byHand : Bool) :
    Recalled known (done ++ [.openScope node byHand]) (session.after (.openScope node byHand)) := by
  by_cases inside : node < known
  · obtain ⟨found, placed⟩ := recalled.exists_node inside
    have opens : (Step.openScope node byHand).opens known = true := decide_eq_true inside
    rw [after_openScope placed]
    refine recalled.push rfl rfl opens ?_ ?_
    · intro openScope member
      cases member
      exact inside
    · intro number
      simp [Step.Closes]
  · have unopened : (Step.openScope node byHand).opens known = false := decide_eq_false inside
    rw [after_openScope_unknown (recalled.no_node inside)]
    exact recalled.frame rfl rfl unopened fun _ => False.elim

theorem crash (recalled : Recalled known done session) (node : Nat) (text message : String) :
    Recalled known (done ++ [.crash node text message]) (session.after (.crash node text message)) := by
  by_cases inside : node < known
  · obtain ⟨found, placed⟩ := recalled.exists_node inside
    have opens : (Step.crash node text message).opens known = true := decide_eq_true inside
    obtain ⟨nodes, scopes⟩ := scopes_crash text message placed
    apply recalled.push (congrArg Array.size nodes) scopes opens nofun
    intro number
    simp [Step.Closes, inside, recalled.size]
  · have unopened : (Step.crash node text message).opens known = false := decide_eq_false inside
    rw [after_crash_unknown text message (recalled.no_node inside)]
    apply recalled.frame rfl rfl unopened
    intro number ⟨known, _⟩
    exact absurd known inside

theorem next (recalled : Recalled known done session) (step : Step) :
    Recalled known (done ++ [step]) (session.after step) := by
  cases step with
  | openScope node byHand => exact recalled.openScope node byHand
  | closeScope number => exact recalled.closeScope number
  | crash node text message => exact recalled.crash node text message
  | write statements =>
    obtain ⟨writer, written⟩ := after_write session statements
    rw [written]
    exact recalled.frame rfl rfl rfl fun _ => False.elim
  | setLine line => exact recalled.frame rfl rfl rfl fun _ => False.elim
  | setSpan node span =>
    obtain ⟨nodes, moved, size⟩ := after_setSpan session node span
    rw [moved]
    exact recalled.frame size rfl rfl fun _ => False.elim
  | take => exact recalled.frame rfl rfl rfl fun _ => False.elim

end Recalled

theorem recalled_perform (nodes : Array Node) (enabled : Bool) (firstLine : UInt32) (steps : List Step) :
    Recalled nodes.size steps ((Session.new nodes enabled firstLine).perform steps) := by
  induction steps using List.reverseRecOn with
  | nil => exact .new nodes enabled firstLine
  | append_singleton done step ih =>
    rw [perform, List.foldl_append, List.foldl_cons, List.foldl_nil, ← perform]
    exact ih.next step

end Scribe.Session
