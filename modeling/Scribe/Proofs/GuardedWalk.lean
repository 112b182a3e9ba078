import Mathlib.Data.List.Basic
import Scribe.Proofs.BaseWalk

/-! The chain of a declaration against the walk without a memory: a cycle is reported exactly where that
walk never stops, and the two end alike where it does. The walk is also run with a resolver that counts,
to bound what it resolves. -/

namespace Scribe

namespace DeclarationIndex

variable {index : DeclarationIndex} {path base : String} {entry : Entry}
  {outcome : Except ResolveError (List Entry)}

/-- `follow` with a resolver that may do something on the side. -/
def followWith {m : Type → Type} [Monad m] (resolve : String → String → m (Except ResolveError Entry))
    (name : String) (unvisited : List Nat) (path : String) :
    (written : Option String) → m (Except ResolveError (List Entry))
  | none => pure (.ok [])
  | some base => do
    match ← resolve path base with
    | .error cause => return .error cause
    | .ok entry =>
      if !entry.declaration.hasPrimary then return .ok []
      else if entry.number ∈ unvisited then
        let chain ← followWith resolve name (unvisited.erase entry.number) entry.path
          entry.declaration.base
        return chain.map (entry :: ·)
      else return .error (.cyclicBaseChain name)
termination_by unvisited.length
decreasing_by
  rename_i unseen
  exact length_erase_lt unseen

def resolveCounting (index : DeclarationIndex) (path base : String) :
    StateM Nat (Except ResolveError Entry) := do
  modify (· + 1)
  return index.resolveBase path base

theorem resolveCounting_eq (index : DeclarationIndex) (path base : String) (count : Nat) :
    index.resolveCounting path base count = (index.resolveBase path base, count + 1) :=
  rfl

theorem Ends.followCounting (ends : index.Ends path base outcome) (name : String)
    (unvisited : List Nat) (count : Nat) :
    followWith index.resolveCounting name unvisited path (some base) count = (outcome, count + 1) := by
  rw [followWith]
  simp only [bind, StateT.bind, resolveCounting_eq]
  cases ends with
  | unresolved failed =>
    rw [failed]
    rfl
  | plain resolved noPrimary =>
    simp only [resolved, noPrimary, Bool.not_false, if_true]
    rfl

theorem Leads.followCounting (leads : index.Leads path base entry) (name : String)
    (unvisited : List Nat) (count : Nat) :
    followWith index.resolveCounting name unvisited path (some base) count =
      if entry.number ∈ unvisited then
        ((followWith index.resolveCounting name (unvisited.erase entry.number) entry.path
            entry.declaration.base (count + 1)).1.map (entry :: ·),
          (followWith index.resolveCounting name (unvisited.erase entry.number) entry.path
            entry.declaration.base (count + 1)).2)
      else (.error (.cyclicBaseChain name), count + 1) := by
  rw [followWith]
  simp only [bind, StateT.bind, resolveCounting_eq, leads.1, leads.2, Bool.not_true,
    Bool.false_eq_true, if_false]
  split <;> rfl

/-- Each resolution but the last crosses a declaration off the list. -/
theorem followCounting_eq (index : DeclarationIndex) (name : String) (unvisited : List Nat)
    (path : String) (written : Option String) (count : Nat) :
    ∃ steps, steps ≤ unvisited.length + 1 ∧
      followWith index.resolveCounting name unvisited path written count =
        (index.follow name unvisited path written, count + steps) := by
  cases written with
  | none => exact ⟨0, Nat.zero_le _, by rw [followWith, follow]; rfl⟩
  | some base =>
    rcases ends_or_leads index path base with ⟨outcome, ends⟩ | ⟨entry, leads⟩
    · exact ⟨1, by omega, by rw [ends.followCounting, ends.follow]⟩
    · rw [leads.followCounting, leads.follow]
      split
      next unseen =>
        obtain ⟨steps, bounded, counted⟩ := followCounting_eq index name
          (unvisited.erase entry.number) entry.path entry.declaration.base (count + 1)
        have shorter := length_erase_lt unseen
        refine ⟨steps + 1, by omega, ?_⟩
        rw [counted, Nat.add_assoc, Nat.add_comm 1 steps]
      next => exact ⟨1, by omega, rfl⟩
termination_by unvisited.length
decreasing_by
  rename_i unseen
  exact length_erase_lt unseen

theorem followWith_resolveBase (index : DeclarationIndex) (name : String) (unvisited : List Nat)
    (path : String) (written : Option String) :
    followWith (m := Id) index.resolveBase name unvisited path written =
      index.follow name unvisited path written := by
  cases written with
  | none =>
    rw [followWith, follow]
    rfl
  | some base =>
    rw [followWith]
    simp only [bind, pure]
    rcases ends_or_leads index path base with ⟨outcome, ends⟩ | ⟨entry, leads⟩
    · rw [ends.follow]
      cases ends with
      | unresolved failed => rw [failed]
      | plain resolved noPrimary => simp only [resolved, noPrimary, Bool.not_false, if_true]
    · simp only [leads.follow, leads.1, leads.2, Bool.not_true, Bool.false_eq_true, if_false]
      split
      next unseen => rw [followWith_resolveBase index name (unvisited.erase entry.number)]
      next => rfl
termination_by unvisited.length
decreasing_by
  rename_i unseen
  exact length_erase_lt unseen

def ancestorsWith {m : Type → Type} [Monad m] (index : DeclarationIndex)
    (resolve : String → String → m (Except ResolveError Entry)) (subject : Subject) :
    m (Except ResolveError (List Entry)) :=
  followWith resolve subject.declaration.name (subject.unvisited index) (subject.start index)
    subject.declaration.base

/-- A cycle is reported exactly where the walk without a memory never stops, and otherwise the two end
alike. Never is more resolved than one base for each declaration and one more. -/
theorem ancestors_eq_walk (tree : SourceTree) (subject : Subject)
    (known : subject.Known (ofTree tree)) :
    subject.StartsAt (ofTree tree) (subject.start (ofTree tree)) ∧
    (∀ name, (ofTree tree).ancestors subject = .error (.cyclicBaseChain name) ↔
      name = subject.declaration.name ∧ ∀ limit,
        (ofTree tree).walk limit (subject.start (ofTree tree)) subject.declaration.base = none) ∧
    (∀ limit outcome,
      (ofTree tree).walk limit (subject.start (ofTree tree)) subject.declaration.base = some outcome →
        (ofTree tree).ancestors subject = outcome) ∧
    (ofTree tree).ancestorsWith (m := Id) (ofTree tree).resolveBase subject =
      (ofTree tree).ancestors subject ∧
    ∃ resolutions, resolutions ≤ (ofTree tree).size + 1 ∧
      (ofTree tree).ancestorsWith (ofTree tree).resolveCounting subject 0 =
        ((ofTree tree).ancestors subject, resolutions) := by
  have distinct := distinct_ofTree tree
  refine ⟨subject.startsAt_start _, fun name => ⟨?_, ?_⟩, fun _ _ => ancestors_of_walk distinct known, ?_, ?_⟩
  · intro cyclic
    constructor
    · rcases walk_of_ancestors (ofTree tree) subject with reported | ⟨limit, stops⟩
      · rw [cyclic] at reported
        cases reported
        rfl
      · exact absurd cyclic ((Stops.of_walk stops).not_cyclic name)
    · intro limit
      rw [Option.eq_none_iff_forall_ne_some]
      intro outcome stops
      rw [ancestors_of_walk distinct known stops] at cyclic
      exact (Stops.of_walk stops).not_cyclic name cyclic
  · intro ⟨named, endless⟩
    rcases walk_of_ancestors (ofTree tree) subject with reported | ⟨limit, stops⟩
    · rw [named, reported]
    · rw [endless limit] at stops
      cases stops
  · rw [ancestors_eq_follow]
    exact followWith_resolveBase ..
  · obtain ⟨resolutions, bounded, counted⟩ := followCounting_eq (ofTree tree) subject.declaration.name
      (subject.unvisited (ofTree tree)) (subject.start (ofTree tree)) subject.declaration.base 0
    have fewer := Subject.length_unvisited_le (ofTree tree) subject
    refine ⟨resolutions, by omega, ?_⟩
    rw [ancestorsWith, counted, ancestors_eq_follow, Nat.zero_add]

def mutualRecord (name base : String) : Declaration where
  name := name
  kind := .recordClass
  primary := some []
  base := some base
  members := []
  span := ⟨⟨1, 1⟩, ⟨1, 1⟩⟩

/-- Two records, each the base of the other. -/
def mutualTree : SourceTree where
  declarations := [mutualRecord "Left" "Right", mutualRecord "Right" "Left"]

def mutualEntry : Entry :=
  ⟨0, "Left", mutualRecord "Left" "Right"⟩

theorem ancestors_mutual_records :
    (Subject.listed mutualEntry).Known (ofTree mutualTree) ∧
      (ofTree mutualTree).ancestors (.listed mutualEntry) = .error (.cyclicBaseChain "Left") := by
  have known : (Subject.listed mutualEntry).Known (ofTree mutualTree) := by
    have listed : (ofTree mutualTree).entries =
        [mutualEntry, ⟨1, "Right", mutualRecord "Right" "Left"⟩] := by cbv
    rw [Subject.Known, listed]
    exact List.mem_cons_self
  refine ⟨known, ((ancestors_eq_walk mutualTree (.listed mutualEntry) known).2.1 "Left").mpr ⟨rfl, ?_⟩⟩
  have right : (ofTree mutualTree).Leads "Left" "Right" ⟨1, "Right", mutualRecord "Right" "Left"⟩ :=
    ⟨by cbv, rfl⟩
  have left : (ofTree mutualTree).Leads "Right" "Left" mutualEntry := ⟨by cbv, rfl⟩
  have endless : ∀ limit, (ofTree mutualTree).walk limit "Left" (some "Right") = none ∧
      (ofTree mutualTree).walk limit "Right" (some "Left") = none := by
    intro limit
    induction limit with
    | zero => exact ⟨rfl, rfl⟩
    | succ limit ih =>
      rw [right.walk, left.walk]
      exact ⟨congrArg (Option.map _) ih.2, congrArg (Option.map _) ih.1⟩
  exact fun limit => (endless limit).1

end DeclarationIndex

end Scribe
