import Scribe.Text.Trim
import Scribe.Text.Whitespace

/-!
Dotted paths of declarations, and the name that a base type is written with. A path is text: its
names are whatever stands between the dots.
-/

namespace Scribe.Path

/-- What stands before the last dot; nothing if there is no dot. -/
def container (path : List Char) : List Char :=
  ((path.reverse.dropWhile (· ≠ '.')).drop 1).reverse

theorem length_container_lt {path : List Char} (nonempty : path ≠ []) :
    (container path).length < path.length := by
  have bound := (List.dropWhile_suffix (· ≠ '.') (l := path.reverse)).length_le
  have positive := List.length_pos_iff.mpr nonempty
  simp only [container, List.length_reverse, List.length_drop] at bound ⊢
  omega

/-- The scopes from the given one outwards, ending with the empty scope of the file. -/
def scopes (scope : List Char) : List (List Char) :=
  if scope = [] then [[]]
  else scope :: scopes (container scope)
termination_by scope.length
decreasing_by exact length_container_lt ‹_›

def qualify (scope name : List Char) : List Char :=
  if scope = [] then name else scope ++ '.' :: name

/-- Drops blanks and everything between angle brackets. A closing bracket that nothing opened is
dropped by itself. -/
def dropArguments : (depth : Nat) → List Char → List Char
  | _, [] => []
  | depth, c :: rest =>
    if c = '<' then dropArguments (depth + 1) rest
    else if c = '>' then dropArguments (depth - 1) rest
    else if depth = 0 ∧ !Text.isWhitespace c then c :: dropArguments depth rest
    else dropArguments depth rest

def dropLead (lead name : List Char) : List Char :=
  if lead.isPrefixOf name then name.drop lead.length else name

/-- The name that a written type stands for: without blanks, without the mark of the global scope
and without type arguments. -/
def ofWritten (written : String) : List Char :=
  dropArguments 0 (dropLead "global::".toList (Text.trim Text.isWhitespace written.toList))

/-- One of the two dotted names ends with the other, counted in whole names. -/
def agree (path name : List Char) : Bool :=
  ('.' :: name).isSuffixOf path || ('.' :: path).isSuffixOf ('.' :: name)

end Scribe.Path
