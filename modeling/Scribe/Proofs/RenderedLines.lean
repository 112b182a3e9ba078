import Scribe.Proofs.WriterLines

/-! The written text line by line. Keeping statements, counting their lines and rendering them agree:
the rendered text consists of the lines of the statements, and the counter moves on by their number. -/

namespace Scribe.Writer

/-- The lines of a statement as it is kept, an empty statement being one empty line. -/
def statementLines (statement : String) : List String :=
  ((trimmed statement).toList.splitOn '\n').map .ofList

/-- The lines of the rendered text. Each ends with a line break, and what follows the last break is not
a line. -/
def lines (writer : Writer) : List String :=
  (writer.render.toList.splitOn '\n').dropLast.map .ofList

theorem length_splitOn (text : List Char) : (text.splitOn '\n').length = text.count '\n' + 1 := by
  induction text with
  | nil => rfl
  | cons first rest ih =>
    simp only [List.splitOn, List.splitOnP_cons_eq_if_modifyHead] at ih ⊢
    by_cases ends : first = '\n'
    · simp [ends, ih]
    · simp [ends, ih]

theorem height_eq_length (statements : List String) :
    height statements = (statements.flatMap statementLines).length := by
  induction statements with
  | nil => rfl
  | cons statement rest ih =>
    simp only [height, List.flatMap_cons, List.length_append, ih]
    simp [statementLines, lineCount, length_splitOn]

theorem height_append (first second : List String) :
    height (first ++ second) = height first + height second := by
  simp only [height_eq_length, List.flatMap_append, List.length_append]

theorem toList_render (writer : Writer) :
    writer.render.toList = writer.statements.toList.flatMap fun kept => kept.toList ++ ['\n'] := by
  have rendered (statements : List String) (text : String) :
      (statements.foldl (fun text statement => text ++ statement ++ "\n") text).toList =
        text.toList ++ statements.flatMap fun kept => kept.toList ++ ['\n'] := by
    induction statements generalizing text with
    | nil => simp
    | cons statement rest ih => simp [ih]
  rw [render, ← Array.foldl_toList, rendered]
  rfl

theorem lines_eq (writer : Writer) :
    writer.lines = writer.statements.toList.flatMap fun kept =>
      (kept.toList.splitOn '\n').map .ofList := by
  have pieces (statements : List String) :
      (statements.flatMap fun kept => kept.toList ++ ['\n']).splitOn '\n' =
        (statements.flatMap fun kept => kept.toList.splitOn '\n') ++ [[]] := by
    induction statements with
    | nil => rfl
    | cons statement rest ih =>
      simp only [List.flatMap_cons, List.append_assoc, List.cons_append, List.nil_append, ← ih]
      exact List.splitOnP_append_cons _ _ (beq_self_eq_true _)
  rw [lines, toList_render, pieces, List.dropLast_concat, List.map_flatMap]

theorem write_ok {statement : String} {writer : Writer}
    (fits : writer.line.toNat + lineCount (trimmed statement) < UInt32.size) :
    ∃ after, write statement writer = .ok () after := by
  simp only [write, fits, if_true]
  exact ⟨_, rfl⟩

theorem write_statements {statement : String} {writer after : Writer}
    (written : write statement writer = .ok () after) :
    after.statements.toList = writer.statements.toList ++ [trimmed statement] := by
  simp only [write] at written
  split at written
  next fits =>
    rw [← (EStateM.Result.ok.inj written).2]
    exact Array.toList_push
  next => cases written

theorem writeAll_ok {statements : List String} {writer : Writer}
    (fits : writer.line.toNat + height statements < UInt32.size) :
    ∃ after, writeAll statements writer = .ok () after := by
  induction statements generalizing writer with
  | nil => exact ⟨writer, rfl⟩
  | cons statement rest ih =>
    simp only [height] at fits
    obtain ⟨next, first⟩ : ∃ next, write statement writer = .ok () next := write_ok (by omega)
    have moved := write_line first
    obtain ⟨after, others⟩ : ∃ after, writeAll rest next = .ok () after := ih (by omega)
    exact ⟨after, writeAll_cons.mpr ⟨next, first, others⟩⟩

theorem writeAll_statements {statements : List String} {writer after : Writer}
    (written : writeAll statements writer = .ok () after) :
    after.statements.toList = writer.statements.toList ++ statements.map trimmed := by
  induction statements generalizing writer with
  | nil =>
    cases written
    simp
  | cons statement rest ih =>
    obtain ⟨next, first, others⟩ := writeAll_cons.mp written
    simp [ih others, write_statements first]

end Scribe.Writer
