import Scribe.Run.Stop
import Scribe.Text.Trim

/-!
The output: statements one after another, and the number of the line where the next one starts. A
statement fills as many lines as it has, one at least, and line breaks at its end are cut off.
-/

namespace Scribe

structure Writer where
  line : UInt32
  statements : Array String

namespace Writer

def startingAt (line : UInt32) : Writer where
  line := line
  statements := #[]

/-- A statement as it is kept. -/
def trimmed (statement : String) : String :=
  .ofList (Text.dropTrailing (· = '\n') statement.toList)

/-- The lines that a kept statement fills. The number is not cut to the 32 bits of the counter: a
statement of `2 ^ 32` lines or more never fits, and such statements are left out of account. -/
def lineCount (statement : String) : Nat :=
  statement.toList.count '\n' + 1

/-- Nothing is written if the line counter would pass its last value. -/
def write (statement : String) : EStateM Overflow Writer Unit :=
  fun writer =>
    let kept := trimmed statement
    let next := writer.line.toNat + lineCount kept
    if next < UInt32.size then .ok () ⟨.ofNat next, writer.statements.push kept⟩
    else .error .overflow writer

/-- Stops at the first statement that does not fit. -/
def writeAll : List String → EStateM Overflow Writer Unit
  | [] => pure ()
  | statement :: rest => do
    write statement
    writeAll rest

def render (writer : Writer) : String :=
  writer.statements.foldl (fun text statement => text ++ statement ++ "\n") ""

end Writer

end Scribe
