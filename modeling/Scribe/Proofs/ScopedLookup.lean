import Scribe.Proofs.NestedNames
import Scribe.Proofs.PathTable

/-! Lookup by text against lookup by lists of names. `Means` says which declaration a name means in a
scope: the one in the innermost enclosing scope that has it, and where no scope has it, the only one
whose list of names ends with the name or is an ending of it. -/

namespace Scribe

namespace SourceTree

/-- One of the two lists of names is a proper ending of the other. -/
def Agrees (path name : List String) : Prop :=
  (name <:+ path ∨ path <:+ name) ∧ path ≠ name

/-- No scope from the given one outwards has the name. -/
def Unscoped (tree : SourceTree) (scope name : List String) : Prop :=
  ∀ outer, outer <+: scope → ¬ tree.Declares (outer ++ name)

/-- What a name means in a scope. -/
inductive Means (tree : SourceTree) (scope name : List String) : Except LookupError Entry → Prop where
  | enclosed {outer : List String} {entry : Entry} (inside : outer <+: scope)
      (first : tree.IsFirst (outer ++ name) entry)
      (innermost : ∀ other, other <+: scope → tree.Declares (other ++ name) →
        other.length ≤ outer.length) :
      Means tree scope name (.ok entry)
  | only {path : List String} {entry : Entry} (unscoped : tree.Unscoped scope name)
      (agrees : Agrees path name) (first : tree.IsFirst path entry)
      (alone : ∀ other, tree.Declares other → Agrees other name → other = path) :
      Means tree scope name (.ok entry)
  | missing (unscoped : tree.Unscoped scope name)
      (nowhere : ∀ other, tree.Declares other → ¬ Agrees other name) :
      Means tree scope name (.error .missing)
  | ambiguous {left right : List String} (unscoped : tree.Unscoped scope name) (differ : left ≠ right)
      (leftDeclared : tree.Declares left) (leftAgrees : Agrees left name)
      (rightDeclared : tree.Declares right) (rightAgrees : Agrees right name) :
      Means tree scope name (.error .ambiguous)

variable {tree : SourceTree} {scope name path : List String} {entry : Entry}

theorem IsFirst.unique {other : Entry} (first : tree.IsFirst path entry)
    (second : tree.IsFirst path other) : entry = other := by
  have same : entry.number = other.number := by
    rcases Nat.lt_trichotomy entry.number other.number with earlier | same | later
    · exact absurd rfl (second.earliest _ earlier _ first.placed)
    · exact same
    · exact absurd rfl (first.earliest _ later _ second.placed)
  have placed := first.placed
  rw [same, second.placed] at placed
  cases entry
  cases other
  cases first.path
  cases second.path
  cases placed
  cases same
  rfl

theorem IsFirst.names_eq {other : List String} (first : tree.IsFirst path entry)
    (second : tree.IsFirst other entry) : path = other := by
  have placed := first.placed
  rw [second.placed] at placed
  cases placed
  rfl

/-- A name means one thing at most. -/
theorem Means.unique {left right : Except LookupError Entry} (first : tree.Means scope name left)
    (second : tree.Means scope name right) : left = right := by
  cases first with
  | enclosed inside isFirst innermost =>
    cases second with
    | enclosed otherInside otherFirst otherInnermost =>
      have length := Nat.le_antisymm (otherInnermost _ inside isFirst.declares)
        (innermost _ otherInside otherFirst.declares)
      have shorter := List.prefix_of_prefix_length_le inside otherInside length.le
      rw [← shorter.eq_of_length length] at otherFirst
      rw [isFirst.unique otherFirst]
    | only unscoped => exact absurd isFirst.declares (unscoped _ inside)
    | missing unscoped => exact absurd isFirst.declares (unscoped _ inside)
    | ambiguous unscoped => exact absurd isFirst.declares (unscoped _ inside)
  | only unscoped agrees isFirst alone =>
    cases second with
    | enclosed inside otherFirst => exact absurd otherFirst.declares (unscoped _ inside)
    | only _ otherAgrees otherFirst otherAlone =>
      rw [alone _ otherFirst.declares otherAgrees] at otherFirst
      rw [isFirst.unique otherFirst]
    | missing _ nowhere => exact absurd agrees (nowhere _ isFirst.declares)
    | ambiguous _ differ leftDeclared leftAgrees rightDeclared rightAgrees =>
      exact absurd ((alone _ leftDeclared leftAgrees).trans (alone _ rightDeclared rightAgrees).symm) differ
  | missing unscoped nowhere =>
    cases second with
    | enclosed inside otherFirst => exact absurd otherFirst.declares (unscoped _ inside)
    | only _ agrees otherFirst => exact absurd agrees (nowhere _ otherFirst.declares)
    | missing => rfl
    | ambiguous _ differ leftDeclared leftAgrees => exact absurd leftAgrees (nowhere _ leftDeclared)
  | ambiguous unscoped differ leftDeclared leftAgrees rightDeclared rightAgrees =>
    cases second with
    | enclosed inside otherFirst => exact absurd otherFirst.declares (unscoped _ inside)
    | only _ agrees otherFirst alone =>
      exact absurd ((alone _ leftDeclared leftAgrees).trans (alone _ rightDeclared rightAgrees).symm) differ
    | missing _ nowhere => exact absurd leftAgrees (nowhere _ leftDeclared)
    | ambiguous => rfl

end SourceTree

namespace DeclarationIndex

open SourceTree

variable {tree : SourceTree} {scope : List String} {entry : Entry}

/-- What one scope has by itself. -/
def atScope? (index : DeclarationIndex) (scope : List String) (name : List Char) : Option Entry :=
  index.atPath? (.ofList (Path.qualify (Text.join "." scope).toList name))

theorem atScope?_cases (named : tree.Named Path.IsPlain) (plain : ∀ part ∈ scope, Path.IsPlain part)
    (name : List Char) :
    (∃ entry, (ofTree tree).atScope? scope name = some entry ∧
      tree.IsFirst (scope ++ Path.names name) entry) ∨
    ((ofTree tree).atScope? scope name = none ∧ ¬ tree.Declares (scope ++ Path.names name)) := by
  have names := Path.names_qualify plain name
  cases found : (ofTree tree).atScope? scope name with
  | some entry =>
    rw [atScope?, atPath?_eq_some_iff named, names] at found
    exact Or.inl ⟨entry, rfl, found⟩
  | none =>
    refine Or.inr ⟨rfl, ?_⟩
    intro declares
    obtain ⟨entry, first⟩ := declares.exists_first
    rw [← names, ← atPath?_eq_some_iff named, ← atScope?, found] at first
    cases first

theorem inScope?_nil (index : DeclarationIndex) (name : List Char) :
    index.inScope? (Text.join "." []).toList name = index.atScope? [] name := by
  rw [inScope?, Path.scopes_join_nil, List.findSome?_singleton]
  rfl

theorem inScope?_concat (index : DeclarationIndex) {outer : List String} {last : String}
    (plain : ∀ part ∈ outer ++ [last], Path.IsPlain part) (name : List Char) :
    index.inScope? (Text.join "." (outer ++ [last])).toList name =
      (index.atScope? (outer ++ [last]) name).or (index.inScope? (Text.join "." outer).toList name) := by
  rw [inScope?, Path.scopes_join_concat plain, List.findSome?_cons, atScope?]
  cases index.atPath? (.ofList (Path.qualify (Text.join "." (outer ++ [last])).toList name)) <;> rfl

/-- Either some scope has the name, and then the innermost counts, or none has it. -/
theorem inScope?_cases (named : tree.Named Path.IsPlain) (plain : ∀ part ∈ scope, Path.IsPlain part)
    (name : List Char) :
    (∃ outer entry, (ofTree tree).inScope? (Text.join "." scope).toList name = some entry ∧
      outer <+: scope ∧ tree.IsFirst (outer ++ Path.names name) entry ∧
      ∀ other, other <+: scope → tree.Declares (other ++ Path.names name) → other.length ≤ outer.length) ∨
    ((ofTree tree).inScope? (Text.join "." scope).toList name = none ∧
      tree.Unscoped scope (Path.names name)) := by
  -- The scopes are gone through from the inside, so the induction takes the last name off.
  induction scope using List.reverseRecOn with
  | nil =>
    rw [inScope?_nil]
    rcases atScope?_cases named plain name with ⟨entry, found, first⟩ | ⟨missed, undeclared⟩
    · exact Or.inl ⟨[], entry, found, List.prefix_rfl, first, fun other inside _ => inside.length_le⟩
    · refine Or.inr ⟨missed, ?_⟩
      intro outer inside
      rw [List.prefix_nil.mp inside]
      exact undeclared
  | append_singleton outer last ih =>
    rw [inScope?_concat _ plain]
    rcases atScope?_cases named plain name with ⟨entry, found, first⟩ | ⟨missed, undeclared⟩
    · rw [found]
      exact Or.inl ⟨_, entry, rfl, List.prefix_rfl, first, fun other inside _ => inside.length_le⟩
    · have further {other : List String} (inside : other <+: outer ++ [last])
          (declares : tree.Declares (other ++ Path.names name)) : other <+: outer := by
        rcases List.prefix_concat_iff.mp inside with rfl | inside
        · exact absurd declares undeclared
        · exact inside
      rw [missed, Option.none_or]
      rcases ih fun part member => plain part (List.mem_append_left _ member) with
        ⟨holder, entry, held, inside, first, innermost⟩ | ⟨nowhere, unscoped⟩
      · refine Or.inl ⟨holder, entry, held, inside.trans (List.prefix_append _ _), first, ?_⟩
        intro other otherInside declares
        exact innermost other (further otherInside declares) declares
      · refine Or.inr ⟨nowhere, ?_⟩
        intro other inside declares
        exact unscoped other (further inside declares) declares

/-- The entries that agree with a name are the first ones of their paths. Where the name itself is not
declared, the paths agree with it as lists. -/
theorem mem_agreeing_iff (named : tree.Named Path.IsPlain) {name : List Char}
    (undeclared : ¬ tree.Declares (Path.names name)) :
    entry ∈ (ofTree tree).agreeing name ↔
      ∃ path, tree.IsFirst path entry ∧ Agrees path (Path.names name) := by
  have found : (ofTree tree).atPath? entry.path = some entry ↔
      tree.IsFirst (Path.names entry.path.toList) entry := by
    rw [← atPath?_eq_some_iff named, String.ofList_toList]
  rw [mem_agreeing, found, Path.agree_iff]
  constructor
  · intro ⟨agrees, first⟩
    refine ⟨_, first, ?_, ?_⟩
    · exact agrees.imp_left And.left
    · intro same
      exact undeclared (same ▸ first.declares)
  · intro ⟨path, first, agrees, differ⟩
    have names : Path.names entry.path.toList = path := by
      rw [first.path]
      exact Path.names_join first.declares.ne_nil fun part member =>
        (named.names first.declares part member).2
    rw [names]
    exact ⟨agrees.imp_left fun longer => ⟨longer, differ.symm⟩, first⟩

/-- Where no scope has the name, the choice among the agreeing entries is right. -/
theorem choice_means (named : tree.Named Path.IsPlain) {name : List Char}
    (unscoped : tree.Unscoped scope (Path.names name)) :
    tree.Means scope (Path.names name) (choice ((ofTree tree).agreeing name)) := by
  have candidates {entry : Entry} : entry ∈ (ofTree tree).agreeing name ↔
      ∃ path, tree.IsFirst path entry ∧ Agrees path (Path.names name) :=
    mem_agreeing_iff named (unscoped [] List.nil_prefix)
  have nodup := agreeing_nodup (ofTree tree) name
  generalize (ofTree tree).agreeing name = listed at candidates nodup
  cases listed with
  | nil =>
    apply Means.missing unscoped
    intro other declares agrees
    obtain ⟨entry, first⟩ := declares.exists_first
    cases candidates.mpr ⟨other, first, agrees⟩
  | cons left rest =>
    obtain ⟨leftPath, leftFirst, leftAgrees⟩ := candidates.mp List.mem_cons_self
    cases rest with
    | nil =>
      apply Means.only unscoped leftAgrees leftFirst
      intro other declares agrees
      obtain ⟨entry, first⟩ := declares.exists_first
      rw [List.mem_singleton.mp (candidates.mpr ⟨other, first, agrees⟩)] at first
      exact first.names_eq leftFirst
    | cons right rest =>
      obtain ⟨rightPath, rightFirst, rightAgrees⟩ :=
        candidates.mp (List.mem_cons_of_mem _ List.mem_cons_self)
      apply Means.ambiguous unscoped _ leftFirst.declares leftAgrees rightFirst.declares rightAgrees
      intro same
      rw [same] at leftFirst
      exact (List.nodup_cons.mp nodup).1 (leftFirst.unique rightFirst ▸ List.mem_cons_self)

/-- Lookup finds what the name means. -/
theorem resolve_means (named : tree.Named Path.IsPlain) (plain : ∀ part ∈ scope, Path.IsPlain part)
    (written : String) :
    tree.Means scope (Path.names (Path.ofWritten written))
      ((ofTree tree).resolve (Text.join "." scope).toList written) := by
  rw [resolve_eq_choice]
  rcases inScope?_cases named plain (Path.ofWritten written) with
    ⟨outer, entry, held, inside, first, innermost⟩ | ⟨missed, unscoped⟩
  · rw [held]
    exact .enclosed inside first innermost
  · rw [missed]
    exact choice_means named unscoped

/-- Lookup from the place of a declaration, by text and in a table of any order, finds what the name means
in the scopes around the declaration. -/
theorem resolve_iff_means (tree : SourceTree) (named : tree.Named Path.IsPlain) (entry : Entry)
    (listed : entry ∈ (ofTree tree).entries) (written : String) :
    ∃ names, tree.nested[entry.number]? = some ⟨names, entry.declaration⟩ ∧
      entry.path = Text.join "." names ∧
      (∀ outcome, (ofTree tree).resolve (Path.container entry.path.toList) written = outcome ↔
        tree.Means names.dropLast (Path.names (Path.ofWritten written)) outcome) ∧
      ∀ table, (ofTree tree).Tabulates table →
        resolveBy table (Path.container entry.path.toList) written =
          (ofTree tree).resolve (Path.container entry.path.toList) written := by
  obtain ⟨names, placed, path⟩ := nested_of_mem_entries listed
  have declares : tree.Declares names := ⟨_, List.mem_of_getElem? placed, rfl⟩
  have plain := named.names declares
  have container : Path.container entry.path.toList = (Text.join "." names.dropLast).toList := by
    rw [path]
    exact Path.container_join fun part member => (plain part member).2
  have means := resolve_means named (fun part member => plain part (List.mem_of_mem_dropLast member)) written
  rw [container]
  refine ⟨names, placed, path, ?_, ?_⟩
  · intro outcome
    constructor
    · intro resolved
      exact resolved ▸ means
    · intro other
      exact means.unique other
  · intro table tabulates
    exact tabulates.resolveBy_eq _ written

def scopeRecord (name : String) (members : List Declaration) : Declaration where
  name := name
  kind := .recordClass
  primary := some []
  base := none
  members := members
  span := ⟨⟨1, 1⟩, ⟨1, 1⟩⟩

/-- Two records of one name, the second inside a record, beside one whose name only ends alike. -/
def scopeTree : SourceTree where
  declarations := [scopeRecord "Base" [],
    scopeRecord "Outer" [scopeRecord "MyBase" [], scopeRecord "Base" [], scopeRecord "Derived" []]]

def innerBase : Entry :=
  ⟨3, "Outer.Base", scopeRecord "Base" []⟩

def innerDerived : Entry :=
  ⟨4, "Outer.Derived", scopeRecord "Derived" []⟩

theorem resolve_inner_base :
    scopeTree.Named Path.IsPlain ∧ innerDerived ∈ (ofTree scopeTree).entries ∧
      scopeTree.Means ["Outer"] ["Base"] (.ok innerBase) ∧
      resolveBy (ofTree scopeTree).table.reverse (Path.container innerDerived.path.toList) "Base<int>" =
        .ok innerBase := by
  have named : scopeTree.Named Path.IsPlain := by
    have all : ∀ nested ∈ scopeTree.nested, Path.IsPlain nested.declaration.name := by decide +kernel
    exact all
  have listed : innerDerived ∈ (ofTree scopeTree).entries := by
    apply List.mem_of_getElem? (i := 4)
    cbv
  have resolved : (ofTree scopeTree).resolve (Path.container innerDerived.path.toList) "Base<int>" =
      .ok innerBase := by
    cbv
  obtain ⟨names, placed, path, means, anyOrder⟩ :=
    resolve_iff_means scopeTree named innerDerived listed "Base<int>"
  cases placed
  refine ⟨named, listed, (means _).mp resolved, ?_⟩
  rw [← resolved]
  exact anyOrder _ ((tabulates_table _).of_perm (List.reverse_perm _))

end DeclarationIndex

end Scribe
