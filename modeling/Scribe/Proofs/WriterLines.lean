import Scribe.Output.Writer
import Scribe.Proofs.Exits

/-! How writing moves the line counter. Every statement fills at least one line, and the counter moves
on by as many lines as the statements fill. -/

namespace Scribe.Writer

/-- The lines that statements fill when they are written one after another. -/
def height : List String → Nat
  | [] => 0
  | statement :: rest => lineCount (trimmed statement) + height rest

theorem write_line {statement : String} {writer after : Writer}
    (written : write statement writer = .ok () after) :
    after.line.toNat = writer.line.toNat + lineCount (trimmed statement) := by
  simp only [write] at written
  split at written
  next fits =>
    rw [← (EStateM.Result.ok.inj written).2]
    exact UInt32.toNat_ofNat_of_lt' fits
  next => cases written

theorem writeAll_cons {statement : String} {rest : List String} {writer after : Writer} :
    writeAll (statement :: rest) writer = .ok () after ↔
      ∃ next, write statement writer = .ok () next ∧ writeAll rest next = .ok () after := by
  rw [writeAll, bind_eq_ok]
  exact ⟨fun ⟨(), next, first, others⟩ => ⟨next, first, others⟩,
    fun ⟨next, first, others⟩ => ⟨(), next, first, others⟩⟩

theorem writeAll_line {statements : List String} {writer after : Writer}
    (written : writeAll statements writer = .ok () after) :
    after.line.toNat = writer.line.toNat + height statements := by
  induction statements generalizing writer with
  | nil =>
    cases written
    rfl
  | cons statement rest ih =>
    obtain ⟨next, first, others⟩ := writeAll_cons.mp written
    rw [ih others, write_line first, height]
    omega

/-- However writing ends, the line counter is never set back. -/
theorem line_le_write (statement : String) (writer : Writer) :
    writer.line ≤ (stateAfter (write statement) writer).line := by
  cases ended : write statement writer with
  | ok _ after =>
    have moved := write_line ended
    simp only [stateAfter, ended, UInt32.le_iff_toNat_le]
    omega
  | error cause after =>
    have kept : after = writer := by
      simp only [write] at ended
      split at ended
      next => cases ended
      next => exact (EStateM.Result.error.inj ended).2.symm
    simp only [stateAfter, ended, kept, UInt32.le_refl]

theorem line_le_writeAll (statements : List String) (writer : Writer) :
    writer.line ≤ (stateAfter (writeAll statements) writer).line := by
  induction statements generalizing writer with
  | nil => exact UInt32.le_refl _
  | cons statement rest ih =>
    have first := line_le_write statement writer
    simp only [writeAll, stateAfter_bind]
    simp only [stateAfter] at first
    split at first
    next written => exact UInt32.le_trans first (ih _)
    next => exact first

end Scribe.Writer
