import Scribe.Mapping.Record

/-!
Recording mappings while output is written. A scope remembers where it was opened; closing it commits
one record that ends at the current line. Whoever opened it holds a guard, which closes the scope when
it is given up, unless the scope was closed before. A tracker that is switched off counts its scopes
all the same, but keeps no records.
-/

namespace Scribe

/-- An open scope: its number, and the source position and output line where it was opened. -/
structure Scope where
  order : Nat
  source : Position
  line : UInt32
deriving DecidableEq, Repr

/-- The counters have no bound: they stand for numbers of 64 bits, which no run uses up. -/
structure Tracker where
  enabled : Bool
  recorded : MappingList
  /-- How many scopes have ever been opened. -/
  opened : Nat
  /-- How many scopes are open. -/
  depth : Nat
deriving DecidableEq, Repr

namespace Tracker

def new (enabled : Bool) : Tracker where
  enabled := enabled
  recorded := .empty
  opened := 0
  depth := 0

def openScope (tracker : Tracker) (source : Position) (line : UInt32) : Scope × Tracker :=
  (⟨tracker.opened, source, line⟩,
    { tracker with opened := tracker.opened + 1, depth := tracker.depth + 1 })

/-- The record of a scope that is closed at a source position and an output line. Output never ends
before it starts, even if the line counter was set back. -/
def record (scope : Scope) (source : Position) (line : UInt32) : Mapping where
  source := ⟨scope.source, source⟩
  output := ⟨⟨scope.line⟩, ⟨max line scope.line⟩⟩

/-- A record ends at the line where its scope is closed, if the line counter was not set back. -/
theorem finish_record (scope : Scope) (source : Position) {line : UInt32}
    (begun : scope.line.toNat ≤ line.toNat) :
    (record scope source line).output.finish.line = line := by
  change (if line ≤ scope.line then scope.line else line) = line
  split
  next lineLe => exact UInt32.le_antisymm (UInt32.le_iff_toNat_le.mpr begun) lineLe
  next => rfl

theorem record_upright (scope : Scope) (source : Position) (line : UInt32) :
    (record scope source line).output.isInverted = false := by
  apply decide_eq_false
  change ¬ (if line ≤ scope.line then scope.line else line) < scope.line
  split
  next => exact UInt32.lt_irrefl scope.line
  next later => exact UInt32.lt_asymm (UInt32.not_le.mp later)

def closeScope (tracker : Tracker) (scope : Scope) (source : Position) (line : UInt32) : Tracker :=
  { tracker with
    depth := tracker.depth - 1
    recorded :=
      if tracker.enabled then tracker.recorded.insert scope.order (record scope source line)
      else tracker.recorded }

/-- Hands the records out and starts over with none. -/
def take (tracker : Tracker) : MappingList × Tracker :=
  (tracker.recorded, { tracker with recorded := .empty })

end Tracker

/-- A scope in the hands of whoever opened it, and whether it has been closed. -/
structure ScopeGuard where
  scope : Scope
  closed : Bool
deriving DecidableEq, Repr

namespace ScopeGuard

def opened (scope : Scope) : ScopeGuard where
  scope := scope
  closed := false

/-- Closes the scope, unless that was done before. -/
def finish (guard : ScopeGuard) (source : Position) (line : UInt32) (tracker : Tracker) :
    ScopeGuard × Tracker :=
  if guard.closed then (guard, tracker)
  else ({ guard with closed := true }, tracker.closeScope guard.scope source line)

/-- Gives the guard up. A scope that is still open is closed by that. -/
def release (guard : ScopeGuard) (source : Position) (line : UInt32) (tracker : Tracker) : Tracker :=
  if guard.closed then tracker else (guard.finish source line tracker).2

/-- Closes the scope and gives the guard up. -/
def close (guard : ScopeGuard) (source : Position) (line : UInt32) (tracker : Tracker) : Tracker :=
  let finished := guard.finish source line tracker
  finished.1.release source line finished.2

variable (guard : ScopeGuard) (source : Position) (line : UInt32) (tracker : Tracker)

theorem closed_finish : (guard.finish source line tracker).1.closed = true := by
  rw [finish]
  split
  next closed => exact closed
  next => rfl

theorem release_eq_finish : guard.release source line tracker = (guard.finish source line tracker).2 := by
  rw [release]
  split
  next closed => rw [finish, if_pos closed]
  next => rfl

/-- Closing finishes the scope, and giving the guard up then has nothing left to do. -/
theorem close_eq_finish : guard.close source line tracker = (guard.finish source line tracker).2 := by
  simp only [close, release, closed_finish, if_true]

/-- Both ways to be done with an open scope commit its record once. -/
theorem close_opened (scope : Scope) :
    (opened scope).close source line tracker = tracker.closeScope scope source line := by
  rw [close_eq_finish]
  rfl

theorem release_opened (scope : Scope) :
    (opened scope).release source line tracker = tracker.closeScope scope source line := by
  rw [release_eq_finish]
  rfl

end ScopeGuard

end Scribe
