import Mathlib.Data.List.Basic
import Scribe.Proofs.BaseWalk

/-! Where a parameter name comes from. The chain of a declaration on a chain is the rest of that chain,
so of all declarations on it the last one that uses a name is the one that introduces it. -/

namespace Scribe

namespace Entry

/-- The primary constructor has a parameter of that name. -/
def Uses (entry : Entry) (name : String) : Prop :=
  ∃ parameter ∈ entry.declaration.parameters, parameter.name = name

instance (entry : Entry) (name : String) : Decidable (entry.Uses name) :=
  inferInstanceAs (Decidable (∃ parameter ∈ entry.declaration.parameters, parameter.name = name))

end Entry

namespace DeclarationIndex

variable {index : DeclarationIndex} {entry next : Entry} {chain rest : List Entry} {name : String}

theorem Stops.onward {limit : Nat} {path : String} {written : Option String}
    (stops : index.Stops limit path written (.ok (next :: rest))) :
    next ∈ index.entries ∧ next.declaration.hasPrimary = true ∧
      ∃ fewer, index.Stops fewer next.path next.declaration.base (.ok rest) := by
  generalize reached : Except.ok (next :: rest) = outcome at stops
  cases stops with
  | rootless => cases reached
  | ended ends =>
    subst reached
    cases ends
  | @led fewer _ _ _ outcome leads continues =>
    cases outcome with
    | error cause => cases reached
    | ok chain =>
      cases reached
      exact ⟨leads.mem, leads.2, fewer, continues⟩

/-- The declaration after the present one on a chain has the rest of the chain for its own. -/
theorem ancestors_cons (distinct : index.Distinct)
    (found : index.ancestors (.listed entry) = .ok (next :: rest)) :
    next.declaration.hasPrimary = true ∧ index.ancestors (.listed next) = .ok rest := by
  rcases walk_of_ancestors index (.listed entry) with cyclic | ⟨limit, stops⟩
  · rw [found] at cyclic
    cases cyclic
  · rw [found] at stops
    obtain ⟨member, primary, fewer, continues⟩ := (Stops.of_walk stops).onward
    have known : (Subject.listed next).Known index := member
    exact ⟨primary, ancestors_of_walk distinct known (continues.walk 0)⟩

theorem ancestors_append (distinct : index.Distinct) {before : List Entry}
    (found : index.ancestors (.listed entry) = .ok (before ++ next :: rest)) :
    index.ancestors (.listed next) = .ok rest := by
  induction before generalizing entry with
  | nil => exact (ancestors_cons distinct found).2
  | cons first before ih => exact ih (ancestors_cons distinct found).2

theorem uniqueParameters_eq (primary : entry.declaration.hasPrimary = true)
    (found : index.ancestors (.listed entry) = .ok chain) :
    index.uniqueParameters (.listed entry) = .ok (entry.declaration.parameters.filter
      fun parameter => ∀ other ∈ chain, ¬ other.Uses parameter.name) := by
  simp only [uniqueParameters, Subject.declaration, primary, Bool.not_true, Bool.false_eq_true, if_false,
    found, bind, Except.bind, pure, Except.pure, Except.ok.injEq]
  apply List.filter_congr
  intro parameter member
  rw [Bool.eq_iff_iff]
  simp only [Bool.not_eq_true', decide_eq_true_eq, List.contains_eq_mem, decide_eq_false_iff_not,
    List.mem_flatMap, List.mem_map, not_exists, not_and, Entry.Uses]

/-- The declaration at a place of the row has a parameter of that name that its own chain does not
have. -/
def IntroducedAt (index : DeclarationIndex) (row : List Entry) (name : String) (place : Nat) : Prop :=
  ∃ declared unique, row[place]? = some declared ∧
    index.uniqueParameters (.listed declared) = .ok unique ∧ name ∈ unique.map (·.name)

theorem introducedAt_zero (primary : entry.declaration.hasPrimary = true)
    (found : index.ancestors (.listed entry) = .ok chain) :
    index.IntroducedAt (entry :: chain) name 0 ↔
      entry.Uses name ∧ ∀ other ∈ chain, ¬ other.Uses name := by
  constructor
  · intro ⟨declared, unique, placed, computed, named⟩
    cases placed
    rw [uniqueParameters_eq primary found] at computed
    cases computed
    obtain ⟨parameter, kept, rfl⟩ := List.mem_map.mp named
    obtain ⟨member, unused⟩ := List.mem_filter.mp kept
    exact ⟨⟨parameter, member, rfl⟩, of_decide_eq_true unused⟩
  · intro ⟨⟨parameter, member, named⟩, unused⟩
    refine ⟨entry, _, rfl, uniqueParameters_eq primary found, List.mem_map.mpr ⟨parameter, ?_, named⟩⟩
    rw [List.mem_filter, named]
    exact ⟨member, decide_eq_true unused⟩

theorem uniqueParameters_subset {subject : Subject} {unique : List Parameter}
    (computed : index.uniqueParameters subject = .ok unique) :
    unique ⊆ subject.declaration.parameters := by
  simp only [uniqueParameters] at computed
  split at computed
  next =>
    cases computed
    exact List.nil_subset _
  next =>
    cases found : index.ancestors subject with
    | error cause =>
      rw [found] at computed
      cases computed
    | ok chain =>
      rw [found] at computed
      cases computed
      exact List.filter_sublist.subset

theorem IntroducedAt.used {row : List Entry} {place : Nat}
    (introduced : index.IntroducedAt row name place) : ∃ declared ∈ row, declared.Uses name := by
  obtain ⟨declared, unique, placed, computed, named⟩ := introduced
  obtain ⟨parameter, member, rfl⟩ := List.mem_map.mp named
  exact ⟨declared, List.mem_of_getElem? placed, parameter, uniqueParameters_subset computed member, rfl⟩

theorem introducedAt_first (primary : entry.declaration.hasPrimary = true)
    (found : index.ancestors (.listed entry) = .ok chain) (used : entry.Uses name)
    (unused : ∀ other ∈ chain, ¬ other.Uses name) :
    ∃! place, index.IntroducedAt (entry :: chain) name place := by
  refine ⟨0, (introducedAt_zero primary found).mpr ⟨used, unused⟩, ?_⟩
  intro other introduced
  cases other with
  | zero => rfl
  | succ other =>
    have further : index.IntroducedAt chain name other := introduced
    obtain ⟨declared, member, uses⟩ := further.used
    exact absurd uses (unused declared member)

/-- A name used further along the chain is introduced there and not here. -/
theorem introducedAt_once (distinct : index.Distinct) (primary : entry.declaration.hasPrimary = true)
    (found : index.ancestors (.listed entry) = .ok chain)
    (used : ∃ declared ∈ entry :: chain, declared.Uses name) :
    ∃! place, index.IntroducedAt (entry :: chain) name place := by
  induction chain generalizing entry with
  | nil =>
    obtain ⟨declared, member, uses⟩ := used
    rw [List.mem_singleton.mp member] at uses
    exact introducedAt_first primary found uses nofun
  | cons next rest ih =>
    obtain ⟨nextPrimary, nextFound⟩ := ancestors_cons distinct found
    by_cases further : ∃ declared ∈ next :: rest, declared.Uses name
    · obtain ⟨place, introduced, only⟩ := ih nextPrimary nextFound further
      refine ⟨place + 1, introduced, ?_⟩
      intro other introducedToo
      cases other with
      | zero =>
        obtain ⟨declared, member, uses⟩ := further
        exact absurd uses (((introducedAt_zero primary found).mp introducedToo).2 declared member)
      | succ other => rw [only other introducedToo]
    · have unused : ∀ other ∈ next :: rest, ¬ other.Uses name :=
        fun other member uses => further ⟨other, member, uses⟩
      obtain ⟨declared, member, uses⟩ := used
      rcases List.mem_cons.mp member with rfl | member
      · exact introducedAt_first primary found uses unused
      · exact absurd uses (unused declared member)

/-- Every name on a chain is introduced by one declaration of it, and what a declaration introduces are
its parameters without the inherited ones. -/
theorem parameter_names_introduced_once (tree : SourceTree) (entry : Entry) (chain : List Entry)
    (primary : entry.declaration.hasPrimary = true)
    (found : (ofTree tree).ancestors (.listed entry) = .ok chain) :
    (∀ before next after, chain = before ++ next :: after →
      (ofTree tree).ancestors (.listed next) = .ok after) ∧
    (∀ name, (∃ declared ∈ entry :: chain, declared.Uses name) →
      ∃! place, (ofTree tree).IntroducedAt (entry :: chain) name place) ∧
    (ofTree tree).uniqueParameters (.listed entry) = .ok (entry.declaration.parameters.filter
      fun parameter => ∀ other ∈ chain, ¬ other.Uses parameter.name) := by
  have distinct := distinct_ofTree tree
  refine ⟨?_, fun name used => introducedAt_once distinct primary found used,
    uniqueParameters_eq primary found⟩
  intro before next after same
  rw [same] at found
  exact ancestors_append distinct found

def familyEntry (number : Nat) (name : String) (base : Option String) (parameters : List String) :
    Entry where
  number := number
  path := name
  declaration :=
    { name, kind := .recordClass, base, members := [], span := default
      primary := some (parameters.map fun parameter => ⟨parameter, "int", default⟩) }

def familyRoot : Entry :=
  familyEntry 0 "Root" none ["Id"]

/-- Has the same name twice. -/
def familyMiddle : Entry :=
  familyEntry 1 "Middle" (some "Root<int>") ["Id", "Tag", "Tag"]

def familyLeaf : Entry :=
  familyEntry 2 "Leaf" (some "Middle") ["Tag", "Own", "Id"]

def familyTree : SourceTree where
  declarations := [familyRoot.declaration, familyMiddle.declaration, familyLeaf.declaration]

theorem family_names_introduced_once :
    (ofTree familyTree).ancestors (.listed familyLeaf) = .ok [familyMiddle, familyRoot] ∧
      (ofTree familyTree).ancestors (.listed familyMiddle) = .ok [familyRoot] ∧
      (ofTree familyTree).uniqueParameters (.listed familyLeaf) = .ok [⟨"Own", "int", default⟩] ∧
      ∃! place, (ofTree familyTree).IntroducedAt [familyLeaf, familyMiddle, familyRoot] "Tag" place := by
  have found : (ofTree familyTree).ancestors (.listed familyLeaf) = .ok [familyMiddle, familyRoot] := by
    cbv
  obtain ⟨tails, once, unique⟩ := parameter_names_introduced_once familyTree familyLeaf _ rfl found
  refine ⟨found, tails [] familyMiddle [familyRoot] rfl, ?_, once "Tag" (by decide)⟩
  rw [unique]
  rfl

end DeclarationIndex

end Scribe
