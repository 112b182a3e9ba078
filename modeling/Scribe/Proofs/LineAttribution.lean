import Scribe.Proofs.ScopeExtents

/-! Where a line of output comes from. If scopes are closed from the inside out, their lines nest, so
the search by output line finds the scope that was innermost when the line was written. -/

namespace Scribe.Session

/-- The scope that was opened last of those that are open. -/
def Innermost (session : Session) (number : Nat) : Prop :=
  session.IsOpen number ∧ ∀ other, session.IsOpen other → other ≤ number

/-- The step keeps to proper nesting: only the innermost scope is closed, and scopes read the writer's
line. Records are not handed out on the way. -/
def Step.Nests (session : Session) : Step → Prop
  | .openScope _ byHand => byHand = false
  | .closeScope number => session.Innermost number
  | .take => False
  | _ => True

/-- The record that a scope would leave if it were closed now. -/
def closingRecord? (session : Session) (number : Nat) : Option Mapping :=
  match session.scopes[number]? with
  | some (some openScope) =>
    session.nodes[openScope.node]?.map fun node =>
      Tracker.record openScope.scope node.span.finish (session.line openScope.byHand)
  | _ => none

theorem Step.Nests.readsWriter {session : Session} {step : Step} (nests : step.Nests session) :
    step.ReadsWriter := by
  cases step with
  | openScope node byHand => exact nests
  | closeScope number => trivial
  | crash node text message => trivial
  | write statements => trivial
  | setLine line => trivial
  | setSpan node span => trivial
  | take => trivial

theorem exists_innermost {session : Session} {number : Nat} (isOpen : session.IsOpen number) :
    ∃ innermost, session.Innermost innermost := by
  have below (limit : Nat) : (∃ other, other < limit ∧ session.IsOpen other) →
      ∃ greatest, session.IsOpen greatest ∧
        ∀ other, other < limit → session.IsOpen other → other ≤ greatest := by
    induction limit with
    | zero =>
      rintro ⟨other, impossible, -⟩
      omega
    | succ limit ih =>
      rintro ⟨other, inside, otherOpen⟩
      by_cases last : session.IsOpen limit
      · exact ⟨limit, last, fun another bound _ => by omega⟩
      · have different : other ≠ limit := fun same => last (same ▸ otherOpen)
        obtain ⟨greatest, greatestOpen, bounds⟩ := ih ⟨other, by omega, otherOpen⟩
        refine ⟨greatest, greatestOpen, ?_⟩
        intro another bound anotherOpen
        have different : another ≠ limit := fun same => last (same ▸ anotherOpen)
        exact bounds another (by omega) anotherOpen
  obtain ⟨greatest, greatestOpen, bounds⟩ := below session.scopes.size ⟨number, isOpen.lt_size, isOpen⟩
  exact ⟨greatest, greatestOpen, fun other otherOpen => bounds other otherOpen.lt_size otherOpen⟩

theorem Extent.lt_size {session : Session} {number first finish : Nat} (numbered : Numbered session)
    (extent : Extent session number first finish) : number < session.scopes.size := by
  cases extent with
  | ofOpen held => exact IsOpen.lt_size ⟨_, held⟩
  | ofRecord member => exact (Array.getElem?_eq_some_iff.mp (numbered.closed _ member)).1

/-- Of two scopes the later one starts no earlier, and either it starts after the lines of the other or
its lines lie within them. In the second case it is not open any longer than the other. -/
structure Laminar (session : Session) : Prop where
  nested : ∀ {outer inner outerFirst outerFinish innerFirst innerFinish : Nat}, outer < inner →
    Extent session outer outerFirst outerFinish → Extent session inner innerFirst innerFinish →
    outerFirst ≤ innerFirst ∧ (outerFinish ≤ innerFirst ∨
      (innerFinish ≤ outerFinish ∧ (session.IsOpen inner → session.IsOpen outer)))

theorem Laminar.new (nodes : Array Node) (enabled : Bool) (firstLine : UInt32) :
    Laminar (.new nodes enabled firstLine) := by
  constructor
  intro outer inner outerFirst outerFinish innerFirst innerFinish later outside inside
  exact absurd (outside.lt_size (.new nodes enabled firstLine)) (Nat.not_lt_zero _)

theorem Laminar.openAt {start session : Session} {done : List Step} (laminar : Laminar session)
    (traced : Traced start done session) (node : Nat) (source : Position) :
    Laminar (session.openAt node source false) := by
  constructor
  intro outer inner outerFirst outerFinish innerFirst innerFinish later outside inside
  have outerOlder : outer < session.scopes.size := by
    have bound := inside.lt_size (traced.numbered.openAt node source false)
    simp only [Session.openAt, Array.size_push] at bound
    omega
  have outside : Extent session outer outerFirst outerFinish := by
    rcases outside.of_openAt with outside | ⟨newest, -, -⟩
    · exact outside
    · omega
  rcases inside.of_openAt with inside | ⟨rfl, rfl, rfl⟩
  · obtain ⟨starts, apart | ⟨within, outlives⟩⟩ := laminar.nested later outside inside
    · exact ⟨starts, Or.inl apart⟩
    · refine ⟨starts, Or.inr ⟨within, ?_⟩⟩
      intro innerOpen
      rcases isOpen_openAt.mp innerOpen with newest | innerOpen
      · have older := inside.lt_size traced.numbered
        omega
      · exact isOpen_openAt.mpr (Or.inr (outlives innerOpen))
  · have bounds := traced.bounds outside
    exact ⟨by omega, Or.inl bounds.2.2⟩

/-- Here the order of closing matters: the scope that is closed may not have an open one inside. -/
theorem Laminar.commit {start session : Session} {done : List Step} {number : Nat}
    {openScope : OpenScope} (laminar : Laminar session) (traced : Traced start done session)
    (held : session.scopes[number]? = some (some openScope)) (innermost : session.Innermost number)
    (node : Node) : Laminar (session.commit number openScope node) := by
  have size := IsOpen.lt_size ⟨_, held⟩
  have before {other first finish : Nat} :
      Extent (session.commit number openScope node) other first finish →
      Extent session other first finish :=
    Extent.of_commit traced.numbered held (traced.byWriter held) (traced.bounds (.ofOpen held)).2.1
  constructor
  intro outer inner outerFirst outerFinish innerFirst innerFinish later outside inside
  obtain ⟨starts, apart | ⟨within, outlives⟩⟩ := laminar.nested later (before outside) (before inside)
  · exact ⟨starts, Or.inl apart⟩
  · refine ⟨starts, Or.inr ⟨within, ?_⟩⟩
    intro innerOpen
    have innerOpen := ((isOpen_commit size).mp innerOpen).2
    have different : number ≠ outer := by
      have bound := innermost.2 inner innerOpen
      omega
    exact (isOpen_commit size).mpr ⟨different, outlives innerOpen⟩

theorem Laminar.write {start session : Session} {done : List Step} {statements : List String}
    {writer : Writer} (laminar : Laminar session) (traced : Traced start done session)
    (written : Writer.writeAll statements session.writer = .ok () writer) :
    Laminar { session with writer } := by
  have moved := Writer.writeAll_line written
  constructor
  intro outer inner outerFirst outerFinish innerFirst innerFinish later outside inside
  rcases outside.of_write with ⟨outerOpen, outerBefore, rfl⟩ | ⟨⟨entry, member, rfl⟩, outerBefore⟩
  · -- An open scope goes on to the new line, and no scope goes beyond it.
    rcases inside.of_write with ⟨innerOpen, innerBefore, rfl⟩ | ⟨innerRecorded, innerBefore⟩
    · have starts := (laminar.nested later outerBefore innerBefore).1
      exact ⟨starts, Or.inr ⟨Nat.le_refl _, fun _ => outerOpen⟩⟩
    · have starts := (laminar.nested later outerBefore innerBefore).1
      have bounds := traced.bounds innerBefore
      exact ⟨starts, Or.inr ⟨by omega, fun _ => outerOpen⟩⟩
  · rcases inside.of_write with ⟨innerOpen, innerBefore, rfl⟩ | ⟨innerRecorded, innerBefore⟩
    · obtain ⟨starts, apart | ⟨within, outlives⟩⟩ := laminar.nested later outerBefore innerBefore
      · exact ⟨starts, Or.inl apart⟩
      · exact absurd (outlives innerOpen) (traced.numbered.not_isOpen member)
    · exact laminar.nested later outerBefore innerBefore

theorem Laminar.frame {session after : Session} (laminar : Laminar session)
    (scopes : after.scopes = session.scopes) (writer : after.writer = session.writer)
    (recorded : after.tracker.recorded = session.tracker.recorded) : Laminar after := by
  have before {number first finish : Nat} :
      Extent after number first finish → Extent session number first finish :=
    Extent.of_frame scopes writer (by rw [recorded]; exact fun _ member => member)
  constructor
  intro outer inner outerFirst outerFinish innerFirst innerFinish later outside inside
  simpa only [IsOpen, scopes] using laminar.nested later (before outside) (before inside)

theorem Laminar.transition {start session after : Session} {done : List Step} {step : Step}
    (laminar : Laminar session) (traced : Traced start done session) (nests : step.Nests session)
    (moved : Transition session step after) : Laminar after := by
  cases moved with
  | openScope known =>
    cases nests
    exact laminar.openAt traced _ _
  | closeScope held known => exact laminar.commit traced held nests _
  | write written => exact laminar.write traced written
  | setLine => exact laminar.frame rfl rfl rfl
  | setSpan known => exact laminar.frame rfl rfl rfl
  | take => exact nests.elim

/-- Every closed scope has its record in the list, and the record is what closing it committed. -/
structure Kept (start : Session) (done : List Step) (session : Session) : Prop where
  enabled : session.tracker.enabled = true
  complete : ∀ {number : Nat}, session.scopes[number]? = some none →
    ∃ entry ∈ session.tracker.recorded.entries, entry.order = number
  committed : ∀ entry ∈ session.tracker.recorded.entries, ∃ closing,
    Applies start done (.closeScope entry.order) closing ∧
      closing.closingRecord? entry.order = some entry.mapping

theorem Kept.new (nodes : Array Node) (firstLine : UInt32) :
    Kept (.new nodes true firstLine) [] (.new nodes true firstLine) where
  enabled := rfl
  complete held := by simp [Session.new] at held
  committed entry member := by cases member

theorem Kept.commit {start session : Session} {done : List Step} {number : Nat}
    {openScope : OpenScope} {node : Node} (kept : Kept start done session)
    (reached : run done start = .ok () session) (numbered : Numbered session)
    (held : session.scopes[number]? = some (some openScope))
    (known : session.nodes[openScope.node]? = some node) :
    Kept start (done ++ [.closeScope number]) (session.commit number openScope node) := by
  have entries : (session.commit number openScope node).tracker.recorded.entries =
      MappingList.insertEntry ⟨openScope.scope.order,
        Tracker.record openScope.scope node.span.finish (session.line openScope.byHand)⟩
        session.tracker.recorded.entries := by
    simp only [Session.commit, Tracker.closeScope, kept.enabled, if_true]
    rfl
  refine ⟨kept.enabled, ?_, ?_⟩
  · intro other closed
    rw [scopes_commit (IsOpen.lt_size ⟨_, held⟩)] at closed
    rw [entries]
    split at closed
    next same =>
      exact ⟨_, MappingList.mem_insertEntry.mpr (Or.inl rfl), (numbered.places held).trans same⟩
    next =>
      obtain ⟨entry, member, order⟩ := kept.complete closed
      exact ⟨entry, MappingList.mem_insertEntry.mpr (Or.inr member), order⟩
  · intro entry member
    rcases mem_recorded_commit member with rfl | member
    · refine ⟨session, applies_append_singleton.mpr (Or.inr ⟨?_, reached⟩), ?_⟩
      · rw [numbered.places held]
      · simp only [closingRecord?, numbered.places held, held, known, Option.map_some]
    · obtain ⟨closing, applied, record⟩ := kept.committed entry member
      exact ⟨closing, applies_append_singleton.mpr (Or.inl applied), record⟩

/-- Steps that close nothing leave the list as it is. -/
theorem Kept.frame {start session after : Session} {done : List Step} {step : Step}
    (kept : Kept start done session) (enabled : after.tracker.enabled = session.tracker.enabled)
    (recorded : after.tracker.recorded = session.tracker.recorded)
    (closed : ∀ {number : Nat}, after.scopes[number]? = some none →
      session.scopes[number]? = some none) :
    Kept start (done ++ [step]) after := by
  refine ⟨enabled.trans kept.enabled, ?_, ?_⟩
  · intro number held
    rw [recorded]
    exact kept.complete (closed held)
  · intro entry member
    rw [recorded] at member
    obtain ⟨closing, applied, record⟩ := kept.committed entry member
    exact ⟨closing, applies_append_singleton.mpr (Or.inl applied), record⟩

theorem Kept.transition {start session after : Session} {done : List Step} {step : Step}
    (kept : Kept start done session) (reached : run done start = .ok () session)
    (numbered : Numbered session) (nests : step.Nests session)
    (moved : Transition session step after) : Kept start (done ++ [step]) after := by
  cases moved with
  | openScope known =>
    apply Kept.frame kept
    · rfl
    · rfl
    · intro number held
      rw [scopes_openAt] at held
      split at held
      next => cases held
      next => exact held
  | closeScope held known => exact kept.commit reached numbered held known
  | write written => exact kept.frame rfl rfl id
  | setLine => exact kept.frame rfl rfl id
  | setSpan known => exact kept.frame rfl rfl id
  | take => exact nests.elim

theorem run_nested {nodes : Array Node} {firstLine : UInt32} {steps : List Step} {final : Session}
    (finished : run steps (.new nodes true firstLine) = .ok () final)
    (nests : ∀ step session, Applies (.new nodes true firstLine) steps step session →
      step.Nests session) :
    Traced (.new nodes true firstLine) steps final ∧ Laminar final ∧
      Kept (.new nodes true firstLine) steps final := by
  apply run_induction (fun done session => Traced (.new nodes true firstLine) done session ∧
    Laminar session ∧ Kept (.new nodes true firstLine) done session) _ _ finished
  · exact ⟨.new .., .new .., .new ..⟩
  · intro done session step after applied reached ⟨traced, laminar, kept⟩ moved
    have proper := nests step session applied
    exact ⟨traced.transition reached proper.readsWriter moved, laminar.transition traced proper moved,
      kept.transition reached traced.numbered proper moved⟩

/-- A line that was written while scopes were open is traced to the innermost of them: the search finds
the record that closing this scope committed. No other line is found. -/
theorem output_line_finds_innermost_scope {nodes : Array Node} {firstLine : UInt32}
    {steps : List Step} {final : Session}
    (finished : run steps (.new nodes true firstLine) = .ok () final)
    (nests : ∀ step session, Applies (.new nodes true firstLine) steps step session →
      step.Nests session)
    (closed : ∀ number, ¬ final.IsOpen number) (line : UInt32) :
    (∀ session, Writes (.new nodes true firstLine) steps line.toNat session →
      (∃ number, session.IsOpen number) →
      ∃ number closing mapping, session.Innermost number ∧
        Applies (.new nodes true firstLine) steps (.closeScope number) closing ∧
        closing.closingRecord? number = some mapping ∧
        final.tracker.recorded.atOutputLine? line = some mapping) ∧
    ((∀ session, Writes (.new nodes true firstLine) steps line.toNat session →
      ∀ number, ¬ session.IsOpen number) →
      final.tracker.recorded.atOutputLine? line = none) := by
  obtain ⟨traced, laminar, kept⟩ := run_nested finished nests
  have containing {entry : MappingEntry} (member : entry ∈ final.tracker.recorded.entries)
      {session : Session} (writes : Writes (.new nodes true firstLine) steps line.toNat session) :
      entry.mapping.output.contains line = true ↔ session.IsOpen entry.order :=
    OutputBlock.contains_iff.trans (traced.covers writes (.ofRecord member))
  constructor
  · intro session writes ⟨_, someOpen⟩
    obtain ⟨number, innermost⟩ := exists_innermost someOpen
    have recorded : final.scopes[number]? = some none := by
      obtain ⟨statements, applied, -⟩ := writes
      have inside := Nat.lt_of_lt_of_le innermost.1.lt_size (traced.older applied)
      cases scope : final.scopes[number]? with
      | none => exact absurd inside (Nat.not_lt.mpr (Array.getElem?_eq_none_iff.mp scope))
      | some place =>
        cases place with
        | none => rfl
        | some openScope => exact absurd ⟨openScope, scope⟩ (closed number)
    obtain ⟨entry, member, rfl⟩ := kept.complete recorded
    obtain ⟨closing, applied, record⟩ := kept.committed entry member
    refine ⟨entry.order, closing, entry.mapping, innermost, applied, record, ?_⟩
    have holds := (containing member writes).mpr innermost.1
    have last : ∀ other ∈ final.tracker.recorded.entries, other.mapping.output.contains line = true →
        other.order ≤ entry.order := fun other otherMember otherHolds =>
      innermost.2 other.order ((containing otherMember writes).mp otherHolds)
    apply MappingList.atOutputLine?_eq_some traced.numbered.ordered member holds last
    intro other otherMember otherHolds
    rcases Nat.lt_or_eq_of_le (last other otherMember otherHolds) with earlier | same
    · -- Both blocks hold the line, so the later one lies within the earlier one.
      have lines := OutputBlock.contains_iff.mp holds
      have otherLines := OutputBlock.contains_iff.mp otherHolds
      have nested := laminar.nested earlier (.ofRecord otherMember) (.ofRecord member)
      simp only [OutputBlock.length]
      omega
    · have equal := traced.numbered.ordered.eq_of_order_eq otherMember member same
      exact Nat.le_of_eq (by rw [equal])
  · intro unscoped
    apply MappingList.atOutputLine?_eq_none
    intro entry member
    apply Bool.eq_false_iff.mpr
    intro holds
    have lines := OutputBlock.contains_iff.mp holds
    have bounds := traced.bounds (.ofRecord member)
    obtain ⟨session, writes⟩ := (traced.written line.toNat).mpr ⟨by omega, by omega⟩
    exact unscoped session writes entry.order ((containing member writes).mp holds)

/-- Two scopes over the same two lines, between two statements without a scope. -/
def twinSteps : List Step :=
  [.write ["before();"], .openScope 0 false, .openScope 1 false, .write ["one();\ntwo();"],
   .closeScope 1, .closeScope 0, .write ["after();"]]

def twinStart : Session :=
  .new #[.bare ⟨⟨1, 1⟩, ⟨5, 2⟩⟩, .bare ⟨⟨3, 5⟩, ⟨3, 9⟩⟩] true 1

theorem output_line_finds_inner_twin :
    ∃ final session number closing mapping, run twinSteps twinStart = .ok () final ∧
      (∀ step session, Applies twinStart twinSteps step session → step.Nests session) ∧
      (∀ number, ¬ final.IsOpen number) ∧
      Writes twinStart twinSteps 3 session ∧ session.Innermost number ∧
      Applies twinStart twinSteps (.closeScope number) closing ∧
      closing.closingRecord? number = some mapping ∧
      final.tracker.recorded.atOutputLine? 3 = some mapping := by
  have nests : ∀ step session, Applies twinStart twinSteps step session → step.Nests session := by
    intro step session applied
    rcases applies_cons.mp applied with ⟨rfl, -⟩ | ⟨_, ⟨⟩, applied⟩
    · trivial
    rcases applies_cons.mp applied with ⟨rfl, -⟩ | ⟨_, ⟨⟩, applied⟩
    · rfl
    rcases applies_cons.mp applied with ⟨rfl, -⟩ | ⟨_, ⟨⟩, applied⟩
    · rfl
    rcases applies_cons.mp applied with ⟨rfl, -⟩ | ⟨_, ⟨⟩, applied⟩
    · trivial
    rcases applies_cons.mp applied with ⟨rfl, rfl⟩ | ⟨_, ⟨⟩, applied⟩
    · exact ⟨⟨_, rfl⟩, fun other isOpen => Nat.le_of_lt_succ isOpen.lt_size⟩
    rcases applies_cons.mp applied with ⟨rfl, rfl⟩ | ⟨_, ⟨⟩, applied⟩
    · refine ⟨⟨_, rfl⟩, ?_⟩
      intro other ⟨openScope, held⟩
      match other with
      | 0 => exact Nat.le_refl 0
      | 1 => cases held
      | place + 2 =>
        have bound : place + 2 < 2 := IsOpen.lt_size ⟨_, held⟩
        omega
    rcases applies_cons.mp applied with ⟨rfl, -⟩ | ⟨_, ⟨⟩, applied⟩
    · trivial
    · obtain ⟨before, after, split, -⟩ := applied
      simp at split
  obtain ⟨final, finished⟩ : ∃ final, run twinSteps twinStart = .ok () final := ⟨_, rfl⟩
  have closed : ∀ number, ¬ final.IsOpen number := by
    cases finished
    intro number ⟨openScope, held⟩
    match number with
    | 0 => cases held
    | 1 => cases held
    | place + 2 =>
      have bound : place + 2 < 2 := IsOpen.lt_size ⟨_, held⟩
      omega
  have writes : ∃ session, Writes twinStart twinSteps 3 session ∧ session.IsOpen 0 :=
    ⟨_, ⟨_, ⟨[_, _, _], _, rfl, rfl⟩, by decide, by decide⟩, _, rfl⟩
  obtain ⟨session, written, isOpen⟩ := writes
  obtain ⟨number, closing, mapping, found⟩ :=
    (output_line_finds_innermost_scope finished nests closed 3).1 session written ⟨0, isOpen⟩
  exact ⟨final, session, number, closing, mapping, finished, nests, closed, written, found⟩

end Scribe.Session
