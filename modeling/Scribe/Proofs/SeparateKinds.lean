import Scribe.Proofs.FreeNumbers

/-! Names of different kinds do not get in each other's way. A request can tell two supplies apart only by
their settings, by the names that they hold reserved and by the counter of its own kind, and it changes
none of these but the counter. So the requests of the other kinds may as well be left out, and in what
order they came among those of a kind makes no difference to it. -/

namespace Scribe.NameSupply

/-- What a name is asked for with. -/
structure Request where
  hint : String
  kind : ElementKind
deriving DecidableEq, Repr

namespace Request

def make (request : Request) : EStateM Overflow NameSupply SyntheticName :=
  synthesize request.hint request.kind

end Request

def reserveAll (supply : NameSupply) (names : List String) : NameSupply :=
  names.foldl reserve supply

/-- The supply after requests, whether or not there was a name for each of them. -/
def afterRequests (supply : NameSupply) (requests : List Request) : NameSupply :=
  requests.foldl (fun supply request => stateAfter request.make supply) supply

/-- Requests with their answers. One that finds no number left is refused, and the next one is made all
the same. -/
def answers (supply : NameSupply) : List Request → List (Request × Except Overflow SyntheticName)
  | [] => []
  | request :: rest =>
    (request, outcome request.make supply) :: answers (stateAfter request.make supply) rest

def answersFor (kind : ElementKind) (supply : NameSupply) (requests : List Request) :
    List (Except Overflow SyntheticName) :=
  ((supply.answers requests).filter (·.1.kind = kind)).map Prod.snd

def ofKind (kind : ElementKind) (requests : List Request) : List Request :=
  requests.filter (·.kind = kind)

def hintsFor (kind : ElementKind) (requests : List Request) : List String :=
  (ofKind kind requests).map (·.hint)

section Sorting

variable {kind : ElementKind} {request : Request}

theorem ofKind_own (request : Request) (rest : List Request) :
    ofKind request.kind (request :: rest) = request :: ofKind request.kind rest := by
  simp [ofKind]

theorem ofKind_other (different : request.kind ≠ kind) (rest : List Request) :
    ofKind kind (request :: rest) = ofKind kind rest := by
  simp [ofKind, different]

/-- The hints are all that requests of one kind can differ in. -/
theorem ofKind_eq_map (kind : ElementKind) (requests : List Request) :
    ofKind kind requests = (hintsFor kind requests).map fun hint => ⟨hint, kind⟩ := by
  rw [hintsFor]
  induction requests with
  | nil => rfl
  | cons request rest ih =>
    by_cases own : request.kind = kind
    · subst own
      rw [ofKind_own, List.map_cons, List.map_cons, ← ih]
    · rw [ofKind_other own]
      exact ih

theorem answersFor_own (supply : NameSupply) (request : Request) (rest : List Request) :
    answersFor request.kind supply (request :: rest) =
      outcome request.make supply :: answersFor request.kind (stateAfter request.make supply) rest := by
  simp [answersFor, answers]

theorem answersFor_other (different : request.kind ≠ kind) (supply : NameSupply) (rest : List Request) :
    answersFor kind supply (request :: rest) = answersFor kind (stateAfter request.make supply) rest := by
  simp [answersFor, answers, different]

end Sorting

/-- Nothing that a request of the kind looks at differs. -/
structure Alike (kind : ElementKind) (left right : NameSupply) : Prop where
  lead : left.lead = right.lead
  hintLimit : left.hintLimit = right.hintLimit
  reserved : ∀ name, name ∈ left.reserved ↔ name ∈ right.reserved
  count : left.count kind = right.count kind

namespace Alike

variable {kind : ElementKind} {left right : NameSupply}

theorem refl (kind : ElementKind) (supply : NameSupply) : Alike kind supply supply :=
  ⟨rfl, rfl, fun _ => Iff.rfl, rfl⟩

theorem trans {third : NameSupply} (first : Alike kind left right) (second : Alike kind right third) :
    Alike kind left third where
  lead := first.lead.trans second.lead
  hintLimit := first.hintLimit.trans second.hintLimit
  reserved name := (first.reserved name).trans (second.reserved name)
  count := first.count.trans second.count

theorem hint (alike : Alike kind left right) (text : String) : left.hint text = right.hint text := by
  rw [NameSupply.hint, NameSupply.hint, alike.hintLimit]

theorem spelling (alike : Alike kind left right) (hint : String) (number : Nat) :
    left.spelling hint kind number = right.spelling hint kind number := by
  rw [NameSupply.spelling, NameSupply.spelling, alike.lead]

theorem freeNumbers (alike : Alike kind left right) (hint : String) :
    left.freeNumbers hint kind = right.freeNumbers hint kind := by
  simp only [NameSupply.freeNumbers, alike.count, alike.spelling, alike.reserved]

/-- The search may go through different numbers of candidates, but it finds the least free one in both. -/
theorem nextNumber? (alike : Alike kind left right) (hint : String) :
    left.nextNumber? hint kind = right.nextNumber? hint kind := by
  obtain ⟨number, least, bounded⟩ := left.exists_least_freeNumber hint kind
  obtain ⟨other, otherLeast, otherBounded⟩ := right.exists_least_freeNumber hint kind
  have same : other = number := by
    rw [alike.freeNumbers hint] at least
    exact otherLeast.unique least
  subst same
  by_cases fits : other < UInt32.size
  · rw [nextNumber?_of_least least bounded fits, nextNumber?_of_least otherLeast otherBounded fits]
  · rw [nextNumber?_eq_none least (Nat.le_of_not_lt fits), nextNumber?_eq_none otherLeast (Nat.le_of_not_lt fits)]

/-- Only the counter of one kind is changed. -/
theorem recount (alike : Alike kind left right) (count : UInt32) :
    Alike kind { left with counters := left.counters.set kind count }
      { right with counters := right.counters.set kind count } where
  lead := alike.lead
  hintLimit := alike.hintLimit
  reserved := alike.reserved
  count := by simp only [NameSupply.count, Counters.get_set_self]

theorem of_recount {other : ElementKind} (different : other ≠ kind) (supply : NameSupply) (count : UInt32) :
    Alike kind { supply with counters := supply.counters.set other count } supply where
  lead := rfl
  hintLimit := rfl
  reserved _ := Iff.rfl
  count := Counters.get_set_other _ _ different

/-- A request of the kind is answered alike by both supplies and leaves them alike. -/
theorem make {request : Request} (alike : Alike request.kind left right) :
    outcome request.make left = outcome request.make right ∧
      Alike request.kind (stateAfter request.make left) (stateAfter request.make right) := by
  have next := alike.nextNumber? (right.hint request.hint)
  cases found : right.nextNumber? (right.hint request.hint) request.kind with
  | some number =>
    simp only [outcome, stateAfter, Request.make, synthesize, alike.hint, next, found, alike.spelling]
    exact ⟨trivial, alike.recount _⟩
  | none =>
    simp only [outcome, stateAfter, Request.make, synthesize, alike.hint, next, found]
    exact ⟨trivial, alike.recount _⟩

/-- A request of another kind goes unnoticed. -/
theorem of_make {request : Request} (different : request.kind ≠ kind) (supply : NameSupply) :
    Alike kind (stateAfter request.make supply) supply := by
  simp only [stateAfter, Request.make, synthesize]
  cases supply.nextNumber? (supply.hint request.hint) request.kind with
  | some number => exact of_recount different supply _
  | none => exact of_recount different supply _

/-- A kind is answered as if nothing else had been asked for. -/
theorem alone (alike : Alike kind left right) (requests : List Request) :
    answersFor kind left requests = answersFor kind right (ofKind kind requests) ∧
      Alike kind (left.afterRequests requests) (right.afterRequests (ofKind kind requests)) := by
  induction requests generalizing left right with
  | nil => exact ⟨rfl, alike⟩
  | cons request rest ih =>
    by_cases own : request.kind = kind
    · subst own
      obtain ⟨answered, after⟩ := alike.make
      obtain ⟨others, final⟩ := ih after
      rw [ofKind_own, answersFor_own, answersFor_own, answered, others]
      exact ⟨rfl, final⟩
    · -- Only the left supply takes a step here, and the kind does not see it.
      rw [ofKind_other own, answersFor_other own]
      exact ih ((of_make own left).trans alike)

/-- In what order the kinds are asked for makes no difference. -/
theorem of_hints (alike : Alike kind left right) {leftRequests rightRequests : List Request}
    (hints : hintsFor kind leftRequests = hintsFor kind rightRequests) :
    answersFor kind left leftRequests = answersFor kind right rightRequests ∧
      (left.afterRequests leftRequests).count kind = (right.afterRequests rightRequests).count kind := by
  obtain ⟨leftAnswers, leftFinal⟩ := alike.alone leftRequests
  obtain ⟨rightAnswers, rightFinal⟩ := (refl kind right).alone rightRequests
  have requested : ofKind kind leftRequests = ofKind kind rightRequests := by
    rw [ofKind_eq_map, ofKind_eq_map, hints]
  rw [requested] at leftAnswers leftFinal
  exact ⟨leftAnswers.trans rightAnswers.symm, leftFinal.count.trans rightFinal.count.symm⟩

end Alike

theorem reserveAll_frame (supply : NameSupply) (names : List String) :
    (supply.reserveAll names).lead = supply.lead ∧ (supply.reserveAll names).hintLimit = supply.hintLimit ∧
      (supply.reserveAll names).counters = supply.counters := by
  induction names generalizing supply with
  | nil => exact ⟨rfl, rfl, rfl⟩
  | cons name rest ih => exact ih (supply.reserve name)

theorem mem_reserveAll {supply : NameSupply} {names : List String} {name : String} :
    name ∈ (supply.reserveAll names).reserved ↔ name ∈ supply.reserved ∨ name ∈ names := by
  induction names generalizing supply with
  | nil => simp [reserveAll]
  | cons first rest ih =>
    have later : (supply.reserveAll (first :: rest)) = (supply.reserve first).reserveAll rest := rfl
    have added : name ∈ (supply.reserve first).reserved ↔ name ∈ supply.reserved ∨ name = first :=
      List.mem_insert_iff.trans or_comm
    rw [later, ih, added, List.mem_cons, or_assoc]

theorem reserveAll_alike {leftNames rightNames : List String} (same : ∀ name, name ∈ leftNames ↔ name ∈ rightNames)
    (supply : NameSupply) (kind : ElementKind) :
    Alike kind (supply.reserveAll leftNames) (supply.reserveAll rightNames) := by
  obtain ⟨leftLead, leftLimit, leftCounters⟩ := supply.reserveAll_frame leftNames
  obtain ⟨rightLead, rightLimit, rightCounters⟩ := supply.reserveAll_frame rightNames
  refine ⟨leftLead.trans rightLead.symm, leftLimit.trans rightLimit.symm, ?_, ?_⟩
  · intro name
    rw [mem_reserveAll, mem_reserveAll, same]
  · rw [count, count, leftCounters, rightCounters]

/-- Two runs reserve the same names and then ask for names in whatever order. If each kind is asked for with
the same hints in both, each kind gets the same answers in both, and the counters end up the same. -/
theorem kinds_answered_independently (settings : NamingSettings) {leftNames rightNames : List String}
    {left right : List Request} (reserved : ∀ name, name ∈ leftNames ↔ name ∈ rightNames)
    (hints : ∀ kind, hintsFor kind left = hintsFor kind right) (kind : ElementKind) :
    let leftStart := (ofSettings settings).reserveAll leftNames
    let rightStart := (ofSettings settings).reserveAll rightNames
    answersFor kind leftStart left = answersFor kind rightStart right ∧
      (leftStart.afterRequests left).count kind = (rightStart.afterRequests right).count kind :=
  (reserveAll_alike reserved (ofSettings settings) kind).of_hints (hints kind)

def crowdedSettings : NamingSettings where
  reserved := ["__l_x_1"]

/-- Locals and fields in turn. -/
def mixedRequests : List Request :=
  [⟨"x", .local⟩, ⟨"a", .field⟩, ⟨"x", .local⟩, ⟨"b", .field⟩]

/-- All fields before all locals. -/
def sortedRequests : List Request :=
  [⟨"a", .field⟩, ⟨"b", .field⟩, ⟨"x", .local⟩, ⟨"x", .local⟩]

theorem kinds_answered_independently_sorted :
    let mixed := (ofSettings crowdedSettings).reserveAll ["__l_x_3", "__fld_b_2"]
    let sorted := (ofSettings crowdedSettings).reserveAll ["__fld_b_2", "__l_x_3", "__l_x_3"]
    (∀ kind, hintsFor kind mixedRequests = hintsFor kind sortedRequests) ∧
    (answersFor .local sorted sortedRequests).map (·.toOption.map (·.name)) =
      [some "__l_x_2", some "__l_x_4"] ∧
    answersFor .local mixed mixedRequests = answersFor .local sorted sortedRequests ∧
    (mixed.afterRequests mixedRequests).count .field = (sorted.afterRequests sortedRequests).count .field := by
  intro mixed sorted
  have reserved : ∀ name, name ∈ ["__l_x_3", "__fld_b_2"] ↔ name ∈ ["__fld_b_2", "__l_x_3", "__l_x_3"] := by
    intro name
    simp only [List.mem_cons, List.not_mem_nil, or_false, or_self]
    exact or_comm
  have hints : ∀ kind, hintsFor kind mixedRequests = hintsFor kind sortedRequests := by
    intro kind
    cases kind <;> rfl
  exact ⟨hints, by decide +kernel, (kinds_answered_independently crowdedSettings reserved hints .local).1,
    (kinds_answered_independently crowdedSettings reserved hints .field).2⟩

end Scribe.NameSupply
