import Scribe.Mapping.Tracker
import Scribe.Output.Writer

/-!
A tracker at work on one writer. Scopes may be closed in any order, each once; a scope reads either
the writer's line or a line that is set by hand, and the span of a bare node may change while a scope
on it is open.
-/

namespace Scribe

structure OpenScope where
  scope : Scope
  node : Nat
  byHand : Bool

structure Session where
  nodes : Array Node
  tracker : Tracker
  writer : Writer
  /-- The line that is set by hand. -/
  handLine : UInt32
  /-- All scopes in opening order; a closed one leaves its place empty. -/
  scopes : Array (Option OpenScope)

namespace Session

inductive Step where
  | openScope (node : Nat) (byHand : Bool)
  | closeScope (scope : Nat)
  /-- A visit that writes something and then aborts; the guard of its scope is given up on the way out. -/
  | crash (node : Nat) (text message : String)
  | write (statements : List String)
  | setLine (line : UInt32)
  | setSpan (node : Nat) (span : Span)
  /-- Hands the records out, so that none are left. -/
  | take

inductive Fault where
  | unknownNode
  | unknownScope
  | abort (message : String)
deriving DecidableEq, Repr

def new (nodes : Array Node) (enabled : Bool) (firstLine : UInt32) : Session where
  nodes := nodes
  tracker := .new enabled
  writer := .startingAt firstLine
  handLine := firstLine
  scopes := #[]

def line (session : Session) (byHand : Bool) : UInt32 :=
  if byHand then session.handLine else session.writer.line

def openAt (session : Session) (node : Nat) (source : Position) (byHand : Bool) : Session :=
  let (scope, tracker) := session.tracker.openScope source (session.line byHand)
  { session with tracker, scopes := session.scopes.push (some ⟨scope, node, byHand⟩) }

/-- Ends an open scope in one of the ways that its guard has. The record ends where the node ends now. -/
def leave (session : Session) (ending : ScopeGuard → Position → UInt32 → Tracker → Tracker)
    (number : Nat) (openScope : OpenScope) (node : Node) : Session :=
  { session with
    tracker := ending (.opened openScope.scope) node.span.finish (session.line openScope.byHand)
      session.tracker
    scopes := session.scopes.setIfInBounds number none }

def endScope (ending : ScopeGuard → Position → UInt32 → Tracker → Tracker) (number : Nat) :
    EStateM Fault Session Unit :=
  fun session =>
    match session.scopes[number]? with
    | some (some openScope) =>
      match session.nodes[openScope.node]? with
      | some node => .ok () (session.leave ending number openScope node)
      | none => .error .unknownNode session
    | _ => .error .unknownScope session

def close (number : Nat) : EStateM Fault Session Unit :=
  endScope ScopeGuard.close number

def release (number : Nat) : EStateM Fault Session Unit :=
  endScope ScopeGuard.release number

def writeAll (statements : List String) : EStateM Fault Session Unit :=
  fun session =>
    match Writer.writeAll statements session.writer with
    | .ok _ writer => .ok () { session with writer }
    | .error cause writer => .error (.abort cause.message) { session with writer }

/-- Aborts with a message, unless the text does not fit and that aborts first. -/
def crashAfter (text message : String) : EStateM Fault Session Unit := do
  writeAll [text]
  throw (.abort message)

def apply : Step → EStateM Fault Session Unit
  | .openScope node byHand => fun session =>
    match session.nodes[node]? with
    | some found => .ok () (session.openAt node found.span.start byHand)
    | none => .error .unknownNode session
  | .closeScope scope => close scope
  | .crash node text message => fun session =>
    match session.nodes[node]? with
    | none => .error .unknownNode session
    | some found =>
      let number := session.scopes.size
      match crashAfter text message (session.openAt node found.span.start false) with
      | .ok _ after => close number after
      | .error fault after =>
        match release number after with
        | .ok _ closed => .error fault closed
        | .error _ closed => .error fault closed
  | .write statements => writeAll statements
  | .setLine line => fun session => .ok () { session with handLine := line }
  | .setSpan node span => fun session =>
    match session.nodes[node]? with
    | some (.bare _) => .ok () { session with nodes := session.nodes.setIfInBounds node (.bare span) }
    | _ => .error .unknownNode session
  | .take => fun session => .ok () { session with tracker := session.tracker.take.2 }

/-- Gives the guards of the scopes up that are still open, in opening order. -/
def closeAll (session : Session) : Session :=
  (List.range session.scopes.size).foldl
    (fun session number =>
      match release number session with
      | .ok _ after => after
      | .error _ after => after)
    session

end Session

end Scribe
