import Scribe.Proofs.RenderedLines

/-! The line counter against the text that was written. Whatever is written, and whatever does not fit
and is given up, the counter stands as many lines past its start as a reader finds in the text. -/

namespace Scribe

namespace Text

/-- The lines that a reader finds in a text. A line feed ends a line, a carriage return right before it
belongs to the ending, and what follows the last line feed is a line unless it is empty. -/
def lines : List Char → List (List Char)
  | [] => []
  | c :: rest =>
    if c = '\n' then [] :: lines rest
    else if c = '\r' ∧ rest.head? = some '\n' then lines rest
    else
      match lines rest with
      | [] => [[c]]
      | line :: others => (c :: line) :: others

example : lines "a\r\n\nb\r".toList = ["a".toList, [], "b\r".toList] := by decide

end Text

namespace Writer

theorem count_render (writer : Writer) : writer.render.toList.count '\n' = writer.lines.length := by
  rw [lines, List.length_map, List.length_dropLast, length_splitOn, Nat.add_sub_cancel]

theorem lines_writeAll {statements : List String} {writer after : Writer}
    (written : writeAll statements writer = .ok () after) :
    after.lines = writer.lines ++ statements.flatMap statementLines := by
  rw [lines_eq, lines_eq, writeAll_statements written, List.flatMap_append, List.flatMap_map]
  rfl

theorem write_overflow {statement : String} {writer : Writer}
    (full : UInt32.size ≤ writer.line.toNat + lineCount (trimmed statement)) :
    write statement writer = .error .overflow writer := by
  simp only [write, Nat.not_lt.mpr full, if_false]

/-- Either all statements are written, or the ones before the first that does not fit. -/
theorem writeAll_cases (statements : List String) (writer : Writer) :
    (∃ after, writeAll statements writer = .ok () after) ∨
    ∃ before failing rest after, statements = before ++ failing :: rest ∧
      writeAll before writer = .ok () after ∧ write failing after = .error .overflow after ∧
      writeAll statements writer = .error .overflow after := by
  induction statements generalizing writer with
  | nil => exact Or.inl ⟨writer, rfl⟩
  | cons statement rest ih =>
    by_cases fits : writer.line.toNat + lineCount (trimmed statement) < UInt32.size
    · obtain ⟨next, written⟩ := write_ok fits
      simp only [writeAll, bind, EStateM.bind, written]
      rcases ih next with all | ⟨before, failing, others, after, split, kept, failed, stopped⟩
      · exact Or.inl all
      · exact Or.inr ⟨statement :: before, failing, others, after, congrArg (statement :: ·) split,
          writeAll_cons.mpr ⟨next, written, kept⟩, failed, stopped⟩
    · have failed := write_overflow (Nat.not_lt.mp fits)
      refine Or.inr ⟨[], statement, rest, writer, rfl, rfl, failed, ?_⟩
      simp only [writeAll, bind, EStateM.bind, failed]

inductive Call where
  | write (statement : String)
  | writeAll (statements : List String)
deriving DecidableEq, Repr

def Call.perform : Call → EStateM Overflow Writer Unit
  | .write statement => Writer.write statement
  | .writeAll statements => Writer.writeAll statements

/-- The counter stands as many lines past the first as the text has line feeds. -/
def Counted (first : UInt32) (writer : Writer) : Prop :=
  writer.line.toNat = first.toNat + writer.render.toList.count '\n'

namespace Counted

variable {first : UInt32} {writer after : Writer} {statements : List String}

theorem startingAt (first : UInt32) : Counted first (.startingAt first) :=
  rfl

theorem writeAll_ok (counted : Counted first writer)
    (written : writeAll statements writer = .ok () after) : Counted first after := by
  unfold Counted at counted ⊢
  rw [writeAll_line written, counted, count_render, count_render, lines_writeAll written,
    height_eq_length, List.length_append, Nat.add_assoc]

theorem writeAll (counted : Counted first writer) :
    Counted first (stateAfter (writeAll statements) writer) := by
  rcases writeAll_cases statements writer with ⟨after, written⟩ | ⟨_, _, _, after, _, kept, _, stopped⟩
  · rw [stateAfter, written]
    exact counted.writeAll_ok written
  · -- What is left is what the statements before the failing one leave when written alone.
    rw [stateAfter, stopped]
    exact counted.writeAll_ok kept

theorem perform (counted : Counted first writer) (call : Call) :
    Counted first (stateAfter call.perform writer) := by
  cases call with
  | writeAll statements => exact counted.writeAll
  | write statement =>
    have one : stateAfter (write statement) writer = stateAfter (Writer.writeAll [statement]) writer := by
      simp only [Writer.writeAll, stateAfter, bind, EStateM.bind]
      cases write statement writer <;> rfl
    rw [Call.perform, one]
    exact counted.writeAll

end Counted

end Writer

end Scribe
