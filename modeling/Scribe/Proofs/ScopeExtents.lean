import Scribe.Proofs.SessionRuns
import Scribe.Proofs.WriterLines

/-! Which output lines belong to a scope. A scope that reads the writer's line takes in exactly the
lines that are written while it is open, in whatever order scopes are closed. -/

namespace Scribe.Session

/-- The lines of a scope so far, the last one excluded: those of its record, or up to the current line
while it is open. -/
inductive Extent (session : Session) : (number first finish : Nat) → Prop where
  | ofOpen {number : Nat} {openScope : OpenScope}
      (held : session.scopes[number]? = some (some openScope)) :
      Extent session number openScope.scope.line.toNat session.writer.line.toNat
  | ofRecord {entry : MappingEntry} (member : entry ∈ session.tracker.recorded.entries) :
      Extent session entry.order entry.mapping.output.start.line.toNat
        entry.mapping.output.finish.line.toNat

/-- While `steps` are run from `start`, statements that fill `line` are written in the state
`session`. -/
def Writes (start : Session) (steps : List Step) (line : Nat) (session : Session) : Prop :=
  ∃ statements, Applies start steps (.write statements) session ∧
    session.writer.line.toNat ≤ line ∧ line < session.writer.line.toNat + Writer.height statements

/-- Scopes that are opened by the step read the writer's line. -/
def Step.ReadsWriter : Step → Prop
  | .openScope _ byHand => byHand = false
  | _ => True

theorem writes_append_other {start past : Session} {done : List Step} {step : Step} {line : Nat}
    (silent : ∀ statements, step ≠ .write statements) :
    Writes start (done ++ [step]) line past ↔ Writes start done line past := by
  simp only [Writes, applies_append_singleton]
  constructor
  · rintro ⟨statements, applied | ⟨same, reached⟩, fills⟩
    · exact ⟨statements, applied, fills⟩
    · exact absurd same.symm (silent statements)
  · rintro ⟨statements, applied, fills⟩
    exact ⟨statements, Or.inl applied, fills⟩

theorem writes_append_write {start past : Session} {done : List Step} {statements : List String}
    {line : Nat} :
    Writes start (done ++ [.write statements]) line past ↔
      Writes start done line past ∨ (run done start = .ok () past ∧
        past.writer.line.toNat ≤ line ∧ line < past.writer.line.toNat + Writer.height statements) := by
  simp only [Writes, applies_append_singleton]
  constructor
  · rintro ⟨other, applied | ⟨same, reached⟩, fills⟩
    · exact Or.inl ⟨other, applied, fills⟩
    · cases same
      exact Or.inr ⟨reached, fills⟩
  · rintro (⟨other, applied, fills⟩ | ⟨reached, fills⟩)
    · exact ⟨other, Or.inl applied, fills⟩
    · exact ⟨statements, Or.inr ⟨rfl, reached⟩, fills⟩

theorem Extent.of_openAt {session : Session} {node number first finish : Nat} {source : Position}
    (extent : Extent (session.openAt node source false) number first finish) :
    Extent session number first finish ∨ (number = session.scopes.size ∧
      first = session.writer.line.toNat ∧ finish = session.writer.line.toNat) := by
  cases extent with
  | ofOpen held =>
    rw [scopes_openAt] at held
    split at held
    next newest =>
      cases held
      exact Or.inr ⟨newest, rfl, rfl⟩
    next => exact Or.inl (.ofOpen held)
  | ofRecord member => exact Or.inl (.ofRecord member)

/-- Closing a scope writes down the lines that it had while it was open. -/
theorem Extent.of_commit {session : Session} {number other first finish : Nat}
    {openScope : OpenScope} {node : Node} (numbered : Numbered session)
    (held : session.scopes[number]? = some (some openScope)) (byWriter : openScope.byHand = false)
    (begun : openScope.scope.line.toNat ≤ session.writer.line.toNat)
    (extent : Extent (session.commit number openScope node) other first finish) :
    Extent session other first finish := by
  cases extent with
  | ofOpen kept =>
    rw [scopes_commit (IsOpen.lt_size ⟨_, held⟩)] at kept
    split at kept
    next => cases kept
    next => exact .ofOpen kept
  | ofRecord member =>
    rcases mem_recorded_commit member with rfl | member
    · simp only [Session.line, byWriter, Bool.false_eq_true, if_false, Tracker.finish_record _ _ begun,
        numbered.places held]
      exact .ofOpen held
    · exact .ofRecord member

theorem Extent.of_write {session : Session} {writer : Writer} {number first finish : Nat}
    (extent : Extent { session with writer } number first finish) :
    (session.IsOpen number ∧ Extent session number first session.writer.line.toNat ∧
      finish = writer.line.toNat) ∨
    ((∃ entry ∈ session.tracker.recorded.entries, entry.order = number) ∧
      Extent session number first finish) := by
  cases extent with
  | ofOpen held => exact Or.inl ⟨⟨_, held⟩, .ofOpen held, rfl⟩
  | ofRecord member => exact Or.inr ⟨⟨_, member, rfl⟩, .ofRecord member⟩

/-- Steps that leave scopes and writer alone and commit nothing give no scope new lines. -/
theorem Extent.of_frame {session after : Session} {number first finish : Nat}
    (scopes : after.scopes = session.scopes) (writer : after.writer = session.writer)
    (recorded : ∀ entry ∈ after.tracker.recorded.entries, entry ∈ session.tracker.recorded.entries)
    (extent : Extent after number first finish) : Extent session number first finish := by
  cases extent with
  | ofOpen held =>
    rw [scopes] at held
    rw [writer]
    exact .ofOpen held
  | ofRecord member => exact .ofRecord (recorded _ member)

/-- What a run has done so far: the lines from the first one up to the current one have been written,
and a scope takes in a line if and only if it was open when the line was written. -/
structure Traced (start : Session) (done : List Step) (session : Session) : Prop where
  numbered : Numbered session
  byWriter : ∀ {number : Nat} {openScope : OpenScope},
    session.scopes[number]? = some (some openScope) → openScope.byHand = false
  older : ∀ {step : Step} {past : Session}, Applies start done step past →
    past.scopes.size ≤ session.scopes.size
  advanced : start.writer.line.toNat ≤ session.writer.line.toNat
  bounds : ∀ {number first finish : Nat}, Extent session number first finish →
    start.writer.line.toNat ≤ first ∧ first ≤ finish ∧ finish ≤ session.writer.line.toNat
  written : ∀ line : Nat, (∃ past, Writes start done line past) ↔
    start.writer.line.toNat ≤ line ∧ line < session.writer.line.toNat
  covers : ∀ {line : Nat} {past : Session} {number first finish : Nat},
    Writes start done line past → Extent session number first finish →
    (first ≤ line ∧ line < finish ↔ past.IsOpen number)

theorem Traced.new (nodes : Array Node) (enabled : Bool) (firstLine : UInt32) :
    Traced (.new nodes enabled firstLine) [] (.new nodes enabled firstLine) := by
  have nothing {step : Step} {past : Session} :
      ¬ Applies (.new nodes enabled firstLine) [] step past := by
    rintro ⟨before, after, split, reached⟩
    simp at split
  have unwritten {line : Nat} {past : Session} :
      ¬ Writes (.new nodes enabled firstLine) [] line past := by
    rintro ⟨statements, applied, fills⟩
    exact nothing applied
  have empty {number first finish : Nat} :
      ¬ Extent (.new nodes enabled firstLine) number first finish := by
    intro extent
    cases extent with
    | ofOpen held => simp [Session.new] at held
    | ofRecord member => cases member
  refine ⟨.new .., ?_, fun applied => absurd applied nothing, Nat.le_refl _,
    fun extent => absurd extent empty, ?_, fun writes => absurd writes unwritten⟩
  · intro number openScope held
    simp [Session.new] at held
  · intro line
    constructor
    · rintro ⟨past, writes⟩
      exact absurd writes unwritten
    · intro bounds
      omega

private theorem Traced.older_step {start session after : Session} {done : List Step} {last : Step}
    (traced : Traced start done session) (reached : run done start = .ok () session)
    (grown : session.scopes.size ≤ after.scopes.size) {step : Step} {past : Session}
    (applied : Applies start (done ++ [last]) step past) : past.scopes.size ≤ after.scopes.size := by
  rcases applies_append_singleton.mp applied with applied | ⟨-, ended⟩
  · exact Nat.le_trans (traced.older applied) grown
  · rw [ended] at reached
    cases reached
    exact grown

/-- Steps that write nothing and add no lines to any scope keep the trace. -/
private theorem Traced.quiet {start session after : Session} {done : List Step} {step : Step}
    (traced : Traced start done session) (reached : run done start = .ok () session)
    (numbered : Numbered after) (silent : ∀ statements, step ≠ .write statements)
    (scopes : ∀ {number : Nat} {openScope : OpenScope},
      after.scopes[number]? = some (some openScope) →
      session.scopes[number]? = some (some openScope))
    (size : after.scopes.size = session.scopes.size) (writer : after.writer = session.writer)
    (extents : ∀ {number first finish : Nat}, Extent after number first finish →
      Extent session number first finish) :
    Traced start (done ++ [step]) after where
  numbered := numbered
  byWriter held := traced.byWriter (scopes held)
  older applied := traced.older_step reached (Nat.le_of_eq size.symm) applied
  advanced := by simpa only [writer] using traced.advanced
  bounds extent := by simpa only [writer] using traced.bounds (extents extent)
  written line := by simpa only [writes_append_other silent, writer] using traced.written line
  covers writes extent := traced.covers ((writes_append_other silent).mp writes) (extents extent)

theorem Traced.openAt {start session : Session} {done : List Step} (traced : Traced start done session)
    (reached : run done start = .ok () session) (node : Nat) (source : Position) :
    Traced start (done ++ [.openScope node false]) (session.openAt node source false) := by
  have silent : ∀ statements, Step.openScope node false ≠ .write statements := nofun
  refine ⟨traced.numbered.openAt node source false, ?_, ?_, traced.advanced, ?_, ?_, ?_⟩
  · intro number openScope held
    rw [scopes_openAt] at held
    split at held
    next => cases held; rfl
    next => exact traced.byWriter held
  · intro step past applied
    apply traced.older_step reached _ applied
    simp [Session.openAt]
  · intro number first finish extent
    rcases extent.of_openAt with before | ⟨rfl, rfl, rfl⟩
    · exact traced.bounds before
    · exact ⟨traced.advanced, Nat.le_refl _, Nat.le_refl _⟩
  · intro line
    simp only [writes_append_other silent]
    exact traced.written line
  · intro line past number first finish writes extent
    have writes := (writes_append_other silent).mp writes
    rcases extent.of_openAt with before | ⟨rfl, rfl, rfl⟩
    · exact traced.covers writes before
    · -- The newest scope has no lines yet, and it was not there when the line was written.
      obtain ⟨statements, applied, fills⟩ := writes
      constructor
      · intro inside
        omega
      · intro isOpen
        have older := traced.older applied
        exact absurd isOpen.lt_size (Nat.not_lt.mpr older)

theorem Traced.commit {start session : Session} {done : List Step} {number : Nat}
    {openScope : OpenScope} (traced : Traced start done session)
    (reached : run done start = .ok () session)
    (held : session.scopes[number]? = some (some openScope)) (node : Node) :
    Traced start (done ++ [.closeScope number]) (session.commit number openScope node) := by
  apply traced.quiet reached (traced.numbered.commit held node)
  · intro statements same
    cases same
  · intro other openScope kept
    rw [scopes_commit (IsOpen.lt_size ⟨_, held⟩)] at kept
    split at kept
    next => cases kept
    next => exact kept
  · simp [Session.commit]
  · rfl
  · exact Extent.of_commit traced.numbered held (traced.byWriter held)
      (traced.bounds (.ofOpen held)).2.1

theorem Traced.write {start session : Session} {done : List Step} {statements : List String}
    {writer : Writer} (traced : Traced start done session) (reached : run done start = .ok () session)
    (written : Writer.writeAll statements session.writer = .ok () writer) :
    Traced start (done ++ [.write statements]) { session with writer } := by
  have moved := Writer.writeAll_line written
  have advanced := traced.advanced
  refine ⟨traced.numbered.transition (.write written), traced.byWriter,
    traced.older_step reached (Nat.le_refl _), by simp only [moved]; omega, ?_, ?_, ?_⟩
  · intro number first finish extent
    rcases extent.of_write with ⟨isOpen, before, rfl⟩ | ⟨recorded, before⟩
    · have bounds := traced.bounds before
      simp only [moved]
      omega
    · have bounds := traced.bounds before
      simp only [moved]
      omega
  · intro line
    have before := traced.written line
    simp only [writes_append_write, moved]
    constructor
    · rintro ⟨past, earlier | ⟨ended, fills⟩⟩
      · have bounds := before.mp ⟨past, earlier⟩
        omega
      · rw [ended] at reached
        cases reached
        omega
    · rintro ⟨lower, upper⟩
      by_cases earlier : line < session.writer.line.toNat
      · obtain ⟨past, writes⟩ := before.mpr ⟨lower, earlier⟩
        exact ⟨past, Or.inl writes⟩
      · exact ⟨session, Or.inr ⟨reached, by omega, upper⟩⟩
  · intro line past number first finish writes extent
    rcases writes_append_write.mp writes with earlier | ⟨ended, fills⟩
    · have lines := (traced.written line).mp ⟨past, earlier⟩
      rcases extent.of_write with ⟨isOpen, before, rfl⟩ | ⟨recorded, before⟩
      · rw [← traced.covers earlier before]
        simp only [moved]
        omega
      · exact traced.covers earlier before
    · rw [ended] at reached
      cases reached
      rcases extent.of_write with ⟨isOpen, before, rfl⟩ | ⟨⟨entry, member, rfl⟩, before⟩
      · have bounds := traced.bounds before
        simp only [isOpen, iff_true, moved]
        omega
      · -- A closed scope ended before these lines, and it is not open now.
        have bounds := traced.bounds before
        constructor
        · intro inside
          omega
        · intro isOpen
          exact absurd isOpen (traced.numbered.not_isOpen member)

theorem Traced.transition {start session after : Session} {done : List Step} {step : Step}
    (traced : Traced start done session) (reached : run done start = .ok () session)
    (readsWriter : step.ReadsWriter) (moved : Transition session step after) :
    Traced start (done ++ [step]) after := by
  have numbered := traced.numbered.transition moved
  cases moved with
  | openScope known =>
    cases readsWriter
    exact traced.openAt reached _ _
  | closeScope held known => exact traced.commit reached held _
  | write written => exact traced.write reached written
  | setLine =>
    exact traced.quiet reached numbered nofun id rfl rfl
      (Extent.of_frame rfl rfl fun entry member => member)
  | setSpan known =>
    exact traced.quiet reached numbered nofun id rfl rfl
      (Extent.of_frame rfl rfl fun entry member => member)
  | take => exact traced.quiet reached numbered nofun id rfl rfl (Extent.of_frame rfl rfl nofun)

end Scribe.Session
