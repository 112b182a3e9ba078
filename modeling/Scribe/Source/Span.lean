/-!
Places in source text. Lines and columns are 32-bit numbers, and positions are ordered by line, then
by column. A span need not be in order: whether it ends before it starts is for its user to judge.
-/

namespace Scribe

structure Position where
  line : UInt32
  column : UInt32
deriving DecidableEq, Ord, Repr, Inhabited

namespace Position

instance : LT Position where
  lt left right := left.line < right.line ∨ (left.line = right.line ∧ left.column < right.column)

instance (left right : Position) : Decidable (left < right) :=
  inferInstanceAs (Decidable (_ ∨ _))

def text (position : Position) : String :=
  s!"{position.line}:{position.column}"

end Position

structure Span where
  start : Position
  finish : Position
deriving DecidableEq, Repr, Inhabited

namespace Span

def coversLine (span : Span) (line : UInt32) : Bool :=
  span.start.line ≤ line && line ≤ span.finish.line

/-- The span ends before it starts. -/
def isInverted (span : Span) : Bool :=
  span.finish < span.start

def text (span : Span) : String :=
  span.start.text ++ "-" ++ span.finish.text

end Span

end Scribe
