import Scribe.Declarations.BaseChain

/-! The walk along base types without a memory. The real walk keeps a list of the declarations that it
may still meet, and a declaration that is off the list leads to the present place. So the list makes no
difference to a walk that stops. -/

namespace Scribe

namespace DeclarationIndex

theorem length_erase_lt {number : Nat} {numbers : List Nat} (member : number ∈ numbers) :
    (numbers.erase number).length < numbers.length := by
  have positive := List.length_pos_of_mem member
  rw [List.length_erase_of_mem member]
  omega

/-- The outcome of the walk if at most `limit` bases have to be resolved for it. -/
def walk (index : DeclarationIndex) : (limit : Nat) → (path : String) → (base : Option String) →
    Option (Except ResolveError (List Entry))
  | _, _, none => some (.ok [])
  | 0, _, some _ => none
  | limit + 1, path, some base =>
    match index.resolve (Path.container path.toList) base with
    | .error .missing => some (.error (.unresolvedBase path base))
    | .error .ambiguous => some (.error (.ambiguousBase path base))
    | .ok entry =>
      if entry.declaration.hasPrimary then
        (index.walk limit entry.path entry.declaration.base).map (·.map (entry :: ·))
      else some (.ok [])

/-- No two entries share a number. -/
def Distinct (index : DeclarationIndex) : Prop :=
  ∀ first ∈ index.entries, ∀ second ∈ index.entries, first.number = second.number → first = second

theorem distinct_ofTree (tree : SourceTree) : (ofTree tree).Distinct := by
  intro first firstMember second secondMember same
  obtain ⟨⟨located, number⟩, firstPlace, rfl⟩ := List.mem_map.mp firstMember
  obtain ⟨⟨other, number'⟩, secondPlace, rfl⟩ := List.mem_map.mp secondMember
  have firstFound := List.mem_zipIdx_iff_getElem?.mp firstPlace
  have secondFound := List.mem_zipIdx_iff_getElem?.mp secondPlace
  simp only at same firstFound secondFound ⊢
  rw [same, secondFound] at firstFound
  rw [same, Option.some.inj firstFound]

theorem atPath?_mem {index : DeclarationIndex} {path : String} {entry : Entry}
    (found : index.atPath? path = some entry) : entry ∈ index.entries :=
  List.mem_of_find?_eq_some found

theorem resolve_mem {index : DeclarationIndex} {scope : List Char} {written : String} {entry : Entry}
    (resolved : index.resolve scope written = .ok entry) : entry ∈ index.entries := by
  simp only [resolve] at resolved
  split at resolved
  next found inScope =>
    cases resolved
    obtain ⟨outer, -, found⟩ := List.exists_of_findSome?_eq_some inScope
    exact atPath?_mem found
  next =>
    split at resolved
    next => cases resolved
    next found only =>
      cases resolved
      have member : entry ∈ index.agreeing (Path.ofWritten written) := by
        rw [only]
        exact List.mem_singleton_self entry
      obtain ⟨path, -, found⟩ := List.mem_filterMap.mp member
      exact atPath?_mem found
    next => cases resolved

theorem resolve_of_resolveBase {index : DeclarationIndex} {path base : String} {entry : Entry}
    (resolved : index.resolveBase path base = .ok entry) :
    index.resolve (Path.container path.toList) base = .ok entry := by
  simp only [resolveBase] at resolved
  split at resolved
  next found =>
    cases resolved
    exact found
  next => cases resolved
  next => cases resolved

/-- The base written at a path ends every walk: it cannot be resolved, or what it means has no primary
constructor. -/
inductive Ends (index : DeclarationIndex) (path base : String) :
    Except ResolveError (List Entry) → Prop where
  | unresolved {cause : ResolveError} (failed : index.resolveBase path base = .error cause) :
      Ends index path base (.error cause)
  | plain {entry : Entry} (resolved : index.resolveBase path base = .ok entry)
      (noPrimary : entry.declaration.hasPrimary = false) : Ends index path base (.ok [])

/-- The base written at a path leads on to a declaration with a primary constructor. -/
def Leads (index : DeclarationIndex) (path base : String) (entry : Entry) : Prop :=
  index.resolveBase path base = .ok entry ∧ entry.declaration.hasPrimary = true

theorem ends_or_leads (index : DeclarationIndex) (path base : String) :
    (∃ outcome, index.Ends path base outcome) ∨ ∃ entry, index.Leads path base entry := by
  cases resolved : index.resolveBase path base with
  | error cause => exact Or.inl ⟨_, .unresolved resolved⟩
  | ok entry =>
    cases primary : entry.declaration.hasPrimary with
    | false => exact Or.inl ⟨_, .plain resolved primary⟩
    | true => exact Or.inr ⟨entry, resolved, primary⟩

variable {index : DeclarationIndex} {path base : String} {entry : Entry}
  {outcome : Except ResolveError (List Entry)}

theorem Ends.not_cyclic (ends : index.Ends path base outcome) (name : String) :
    outcome ≠ .error (.cyclicBaseChain name) := by
  cases ends with
  | plain resolved noPrimary => nofun
  | unresolved failed =>
    intro cyclic
    cases cyclic
    simp only [resolveBase] at failed
    split at failed <;> cases failed

theorem Ends.walk (ends : index.Ends path base outcome) (limit : Nat) :
    index.walk (limit + 1) path (some base) = some outcome := by
  cases ends with
  | unresolved failed =>
    simp only [resolveBase] at failed
    simp only [DeclarationIndex.walk]
    split at failed <;> cases failed
    next missing => rw [missing]
    next ambiguous => rw [ambiguous]
  | plain resolved noPrimary =>
    simp only [DeclarationIndex.walk, resolve_of_resolveBase resolved, noPrimary, Bool.false_eq_true,
      if_false]

theorem Ends.follow (ends : index.Ends path base outcome) (name : String) (unvisited : List Nat) :
    index.follow name unvisited path (some base) = outcome := by
  rw [DeclarationIndex.follow]
  cases ends with
  | unresolved failed => rw [failed]
  | plain resolved noPrimary =>
    simp only [resolved, noPrimary, Bool.not_false, if_true]

theorem Leads.walk (leads : index.Leads path base entry) (limit : Nat) :
    index.walk (limit + 1) path (some base) =
      (index.walk limit entry.path entry.declaration.base).map (·.map (entry :: ·)) := by
  simp only [DeclarationIndex.walk, resolve_of_resolveBase leads.1, leads.2, if_true]

theorem Leads.follow (leads : index.Leads path base entry) (name : String) (unvisited : List Nat) :
    index.follow name unvisited path (some base) =
      if entry.number ∈ unvisited then
        (index.follow name (unvisited.erase entry.number) entry.path entry.declaration.base).map
          (entry :: ·)
      else .error (.cyclicBaseChain name) := by
  rw [DeclarationIndex.follow]
  simp only [leads.1, leads.2, Bool.not_true, Bool.false_eq_true, if_false]

theorem Leads.mem (leads : index.Leads path base entry) : entry ∈ index.entries :=
  resolve_mem (resolve_of_resolveBase leads.1)

theorem walk_none (index : DeclarationIndex) (limit : Nat) (path : String) :
    index.walk limit path none = some (.ok []) := by
  cases limit <;> rfl

/-- How a walk that stops within the limit goes. -/
inductive Stops (index : DeclarationIndex) :
    (limit : Nat) → (path : String) → (base : Option String) →
      Except ResolveError (List Entry) → Prop where
  | rootless {limit : Nat} {path : String} : Stops index limit path none (.ok [])
  | ended {limit : Nat} {path base : String} {outcome : Except ResolveError (List Entry)}
      (ends : index.Ends path base outcome) : Stops index (limit + 1) path (some base) outcome
  | led {limit : Nat} {path base : String} {entry : Entry} {rest : Except ResolveError (List Entry)}
      (leads : index.Leads path base entry)
      (continues : Stops index limit entry.path entry.declaration.base rest) :
      Stops index (limit + 1) path (some base) (rest.map (entry :: ·))

theorem Stops.of_walk {limit : Nat} {written : Option String}
    (stops : index.walk limit path written = some outcome) : index.Stops limit path written outcome := by
  induction limit generalizing path written outcome with
  | zero =>
    cases written with
    | none =>
      cases stops
      exact .rootless
    | some base => cases stops
  | succ limit ih =>
    cases written with
    | none =>
      cases stops
      exact .rootless
    | some base =>
      rcases ends_or_leads index path base with ⟨ended, ends⟩ | ⟨entry, leads⟩
      · rw [ends.walk] at stops
        cases stops
        exact .ended ends
      · rw [leads.walk] at stops
        obtain ⟨rest, continues, rfl⟩ := Option.map_eq_some_iff.mp stops
        exact .led leads (ih continues)

/-- A walk that stops does so in the same way when it may take more steps. -/
theorem Stops.walk {limit : Nat} {written : Option String}
    (stops : index.Stops limit path written outcome) (more : Nat) :
    index.walk (limit + more) path written = some outcome := by
  induction stops with
  | rootless => exact walk_none ..
  | ended ends =>
    rw [Nat.add_right_comm]
    exact ends.walk _
  | led leads continues ih => rw [Nat.add_right_comm, leads.walk, ih, Option.map_some]

theorem Stops.not_cyclic {limit : Nat} {written : Option String}
    (stops : index.Stops limit path written outcome) (name : String) :
    outcome ≠ .error (.cyclicBaseChain name) := by
  induction stops with
  | rootless => nofun
  | ended ends => exact ends.not_cyclic name
  | @led _ _ _ _ rest leads continues ih =>
    cases rest with
    | ok chain => nofun
    | error cause => exact ih

/-- Whoever has been visited leads here: if the walk stops from there, it stops from here as well, and
no later. -/
def Behind (index : DeclarationIndex) (unvisited : List Nat) (path : String)
    (written : Option String) : Prop :=
  ∀ entry ∈ index.entries, entry.number ∉ unvisited →
    ∀ limit, (index.walk limit entry.path entry.declaration.base).isSome = true →
      (index.walk limit path written).isSome = true

theorem Leads.walk_isSome (leads : index.Leads path base entry) (limit : Nat) :
    (index.walk (limit + 1) path (some base)).isSome =
      (index.walk limit entry.path entry.declaration.base).isSome := by
  rw [leads.walk, Option.isSome_map]

/-- A base that leads back to a declaration already visited keeps the walk going forever. -/
theorem Leads.endless {unvisited : List Nat} (leads : index.Leads path base entry)
    (behind : index.Behind unvisited path (some base)) (visited : entry.number ∉ unvisited)
    (limit : Nat) : index.walk limit path (some base) = none := by
  induction limit with
  | zero => rfl
  | succ limit ih =>
    rw [leads.walk]
    cases continues : index.walk limit entry.path entry.declaration.base with
    | none => rfl
    | some rest =>
      have here := behind entry leads.mem visited limit (by rw [continues]; rfl)
      rw [ih] at here
      cases here

theorem Leads.behind {unvisited : List Nat} (distinct : index.Distinct)
    (leads : index.Leads path base entry) (behind : index.Behind unvisited path (some base)) :
    index.Behind (unvisited.erase entry.number) entry.path entry.declaration.base := by
  intro other member visited limit stops
  by_cases same : other.number = entry.number
  · rw [distinct other member entry leads.mem same] at stops
    exact stops
  · -- Crossed off earlier, so it led to the present place, from where the next is one step away.
    have before : other.number ∉ unvisited := by
      rwa [List.mem_erase_of_ne same] at visited
    have here := behind other member before limit stops
    cases limit with
    | zero => cases here
    | succ limit =>
      rw [leads.walk_isSome] at here
      obtain ⟨outcome, continues⟩ := Option.isSome_iff_exists.mp here
      rw [(Stops.of_walk continues).walk 1, Option.isSome_some]

/-- Where the walk without a memory stops, the list of unvisited declarations makes no difference. -/
theorem Stops.follow {unvisited : List Nat} {limit : Nat} {written : Option String}
    (stops : index.Stops limit path written outcome) (distinct : index.Distinct) (name : String)
    (behind : index.Behind unvisited path written) :
    index.follow name unvisited path written = outcome := by
  induction stops generalizing unvisited with
  | rootless => rw [DeclarationIndex.follow]
  | ended ends => exact ends.follow name unvisited
  | led leads continues ih =>
    rw [leads.follow]
    split
    next unseen => rw [ih (leads.behind distinct behind)]
    next visited =>
      have stopped := (Stops.led leads continues).walk 0
      rw [leads.endless behind visited] at stopped
      cases stopped

/-- The other way round: unless it reports a cycle, the walk with a memory ends like the one without. -/
theorem walk_of_follow (index : DeclarationIndex) (name : String) (unvisited : List Nat)
    (path : String) (written : Option String) :
    index.follow name unvisited path written = .error (.cyclicBaseChain name) ∨
      ∃ limit, index.walk limit path written = some (index.follow name unvisited path written) := by
  -- Recursion on the list of unvisited declarations, like the walk itself.
  cases written with
  | none =>
    right
    exact ⟨0, by rw [walk_none, follow]⟩
  | some base =>
    rcases ends_or_leads index path base with ⟨outcome, ends⟩ | ⟨entry, leads⟩
    · right
      exact ⟨1, by rw [ends.walk, ends.follow]⟩
    · rw [leads.follow]
      split
      next unseen =>
        rcases walk_of_follow index name (unvisited.erase entry.number) entry.path
          entry.declaration.base with cyclic | ⟨limit, stops⟩
        · left
          rw [cyclic]
          rfl
        · right
          exact ⟨limit + 1, by rw [leads.walk, stops]; rfl⟩
      next => exact Or.inl rfl
termination_by unvisited.length
decreasing_by
  rename_i unseen
  exact length_erase_lt unseen

/-- A subject by its number has to be in the index; one given in full may be anything. -/
def Subject.Known (index : DeclarationIndex) : Subject → Prop
  | .listed entry => entry ∈ index.entries
  | .given _ => True

/-- Where the walk of a subject starts. -/
def Subject.start (index : DeclarationIndex) (subject : Subject) : String :=
  match subject.entry? index with
  | some entry => entry.path
  | none => subject.declaration.name

/-- A subject by its number starts at its path. One given in full starts at the path of the first entry that
equals it, and at its own name if there is none. -/
inductive Subject.StartsAt (index : DeclarationIndex) : Subject → String → Prop where
  | listed (entry : Entry) : StartsAt index (.listed entry) entry.path
  | first {before after : List Entry} {entry : Entry} (divided : index.entries = before ++ entry :: after)
      (earlier : ∀ other ∈ before, other.declaration ≠ entry.declaration) :
      StartsAt index (.given entry.declaration) entry.path
  | detached {declaration : Declaration} (missing : ∀ entry ∈ index.entries, entry.declaration ≠ declaration) :
      StartsAt index (.given declaration) declaration.name

theorem Subject.startsAt_start (index : DeclarationIndex) (subject : Subject) :
    subject.StartsAt index (subject.start index) := by
  cases subject with
  | listed entry => exact .listed entry
  | given declaration =>
    cases found : index.locate? declaration with
    | none =>
      simp only [Subject.start, Subject.entry?, found]
      apply StartsAt.detached
      intro entry member same
      exact List.find?_eq_none.mp found entry member (decide_eq_true same)
    | some entry =>
      simp only [Subject.start, Subject.entry?, found]
      obtain ⟨equal, before, after, divided, earlier⟩ := List.find?_eq_some_iff_append.mp found
      obtain rfl : entry.declaration = declaration := of_decide_eq_true equal
      apply StartsAt.first divided
      intro other member same
      have different := earlier other member
      rw [decide_eq_true same] at different
      cases different

/-- The numbers that the walk of a subject may still meet. -/
def Subject.unvisited (index : DeclarationIndex) (subject : Subject) : List Nat :=
  match subject.entry? index with
  | some entry => (index.entries.map (·.number)).erase entry.number
  | none => index.entries.map (·.number)

theorem ancestors_eq_follow (index : DeclarationIndex) (subject : Subject) :
    index.ancestors subject = index.follow subject.declaration.name (subject.unvisited index)
      (subject.start index) subject.declaration.base := by
  simp only [ancestors, Subject.unvisited, Subject.start]
  cases subject.entry? index <;> rfl

theorem Subject.declaration_eq {subject : Subject} (found : subject.entry? index = some entry) :
    subject.declaration = entry.declaration := by
  cases subject with
  | listed listed =>
    cases found
    rfl
  | given declaration =>
    have same := List.find?_some found
    exact (of_decide_eq_true same).symm

theorem Subject.Known.entry?_mem {subject : Subject} (known : subject.Known index)
    (found : subject.entry? index = some entry) : entry ∈ index.entries := by
  cases subject with
  | listed listed =>
    cases found
    exact known
  | given declaration => exact List.mem_of_find?_eq_some found

/-- At the start only the subject itself has been visited, if it is in the index at all. -/
theorem Subject.Known.behind {subject : Subject} (distinct : index.Distinct)
    (known : subject.Known index) :
    index.Behind (subject.unvisited index) (subject.start index) subject.declaration.base := by
  intro other member visited limit stops
  have listed : other.number ∈ index.entries.map (·.number) := List.mem_map_of_mem member
  cases found : subject.entry? index with
  | none =>
    simp only [Subject.unvisited, found] at visited
    exact absurd listed visited
  | some entry =>
    simp only [Subject.unvisited, found] at visited
    by_cases same : other.number = entry.number
    · rw [distinct other member entry (known.entry?_mem found) same] at stops
      simp only [Subject.start, found, Subject.declaration_eq found]
      exact stops
    · rw [List.mem_erase_of_ne same] at visited
      exact absurd listed visited

theorem Subject.length_unvisited_le (index : DeclarationIndex) (subject : Subject) :
    (subject.unvisited index).length ≤ index.size := by
  simp only [Subject.unvisited, size]
  split
  next entry found =>
    have shorter := List.length_erase_le (a := entry.number) (l := index.entries.map (·.number))
    rwa [List.length_map] at shorter
  next => exact Nat.le_of_eq (List.length_map _)

theorem ancestors_of_walk {subject : Subject} {limit : Nat} (distinct : index.Distinct)
    (known : subject.Known index)
    (stops : index.walk limit (subject.start index) subject.declaration.base = some outcome) :
    index.ancestors subject = outcome := by
  rw [ancestors_eq_follow]
  exact (Stops.of_walk stops).follow distinct _ (known.behind distinct)

theorem walk_of_ancestors (index : DeclarationIndex) (subject : Subject) :
    index.ancestors subject = .error (.cyclicBaseChain subject.declaration.name) ∨
      ∃ limit, index.walk limit (subject.start index) subject.declaration.base =
        some (index.ancestors subject) := by
  rw [ancestors_eq_follow]
  exact walk_of_follow ..

end DeclarationIndex

end Scribe
