import Scribe.Proofs.ScopedLookup

/-! Names with a namespace in front. A namespace is no part of a path, so such a name is found by its
ending. That works as long as only one declared path is an ending of it: a declaration whose path is a
proper ending of the path asked for agrees with the name just as well, and then nothing is found. -/

namespace Scribe

namespace Path

/-- A character that a written name keeps wherever it stands. -/
def IsBare (c : Char) : Prop :=
  Text.isWhitespace c = false ∧ c ∉ [':', '<', '>']

instance (c : Char) : Decidable (IsBare c) :=
  inferInstanceAs (Decidable (_ ∧ _))

def IsIdentifier (name : String) : Prop :=
  name ≠ "" ∧ ∀ c ∈ name.toList, IsBare c ∧ c ≠ '.'

instance (name : String) : Decidable (IsIdentifier name) :=
  have : Decidable (∀ c ∈ name.toList, IsBare c ∧ c ≠ '.') := List.decidableBAll _ _
  inferInstanceAs (Decidable (_ ∧ _))

theorem IsIdentifier.isPlain {name : String} (identifier : IsIdentifier name) : IsPlain name :=
  ⟨identifier.1, fun dot => (identifier.2 '.' dot).2 rfl⟩

theorem IsBare.solid {c : Char} (bare : IsBare c) : Text.isWhitespace c = false ∧ c ≠ '<' ∧ c ≠ '>' := by
  obtain ⟨visible, unmarked⟩ := bare
  simp only [List.mem_cons, not_or] at unmarked
  exact ⟨visible, unmarked.2.1, unmarked.2.2.1⟩

theorem dropArguments_solid {text : List Char}
    (solid : ∀ c ∈ text, Text.isWhitespace c = false ∧ c ≠ '<' ∧ c ≠ '>') (rest : List Char) :
    dropArguments 0 (text ++ rest) = text ++ dropArguments 0 rest := by
  induction text with
  | nil => rfl
  | cons c text ih =>
    obtain ⟨visible, notOpening, notClosing⟩ := solid c List.mem_cons_self
    rw [List.cons_append, dropArguments, if_neg notOpening, if_neg notClosing, if_pos (by simp [visible]),
      ih fun other member => solid other (List.mem_cons_of_mem _ member), List.cons_append]

theorem dropArguments_of_bare {text : List Char} (bare : ∀ c ∈ text, IsBare c) :
    dropArguments 0 text = text := by
  have kept := dropArguments_solid (fun c member => (bare c member).solid) []
  rwa [dropArguments, List.append_nil] at kept

theorem trim_of_solid {text : List Char} (solid : ∀ c ∈ text, Text.isWhitespace c = false) :
    Text.trim Text.isWhitespace text = text := by
  apply Text.trim_of_ends
  · exact fun c head => solid c (List.mem_of_head? head)
  · exact fun c last => solid c (List.mem_of_getLast? last)

theorem ofWritten_of_bare {written : String} (bare : ∀ c ∈ written.toList, IsBare c) :
    ofWritten written = written.toList := by
  have noLead : ¬ "global::".toList <+: written.toList := by
    intro lead
    have colon : ':' ∈ written.toList := lead.subset (by decide)
    exact (bare ':' colon).2 (by simp)
  rw [ofWritten, trim_of_solid fun c member => (bare c member).1, dropLead,
    if_neg (by rwa [List.isPrefixOf_iff_prefix]), dropArguments_of_bare bare]

theorem bare_join {parts : List String} (bare : ∀ part ∈ parts, ∀ c ∈ part.toList, IsBare c) :
    ∀ c ∈ (Text.join "." parts).toList, IsBare c := by
  intro c member
  rcases Text.mem_join member with dot | ⟨part, inside, found⟩
  · rw [List.mem_singleton.mp dot]
    decide
  · exact bare part inside c found

theorem names_ofWritten_join {parts : List String} (nonempty : parts ≠ [])
    (identifiers : ∀ part ∈ parts, IsIdentifier part) :
    names (ofWritten (Text.join "." parts)) = parts := by
  rw [ofWritten_of_bare (bare_join fun part member c found => ((identifiers part member).2 c found).1)]
  exact names_join nonempty fun part member => (identifiers part member).isPlain.2

end Path

namespace SourceTree

variable {tree : SourceTree} {space path other : List String} {entry : Entry}

/-- A path that reaches into the namespace is not declared. -/
theorem Named.not_declares (foreign : tree.Named (· ∉ space)) {part : String} (inSpace : part ∈ space)
    (inPath : part ∈ path) : ¬ tree.Declares path :=
  fun declares => foreign.names declares part inPath inSpace

theorem Named.unscoped (foreign : tree.Named (· ∉ space)) (nonempty : space ≠ []) :
    tree.Unscoped [] (space ++ path) := by
  obtain ⟨part, inSpace⟩ := List.exists_mem_of_ne_nil space nonempty
  intro outer inside
  rw [List.prefix_nil.mp inside, List.nil_append]
  exact foreign.not_declares inSpace (List.mem_append_left _ inSpace)

/-- The declared paths that agree with a name behind a namespace are the endings of that name. -/
theorem agrees_qualified_iff (foreign : tree.Named (· ∉ space)) (nonempty : space ≠ [])
    (declares : tree.Declares other) : Agrees other (space ++ path) ↔ other <:+ path := by
  constructor
  · intro ⟨ending, differ⟩
    rcases ending with longer | ⟨front, split⟩
    · obtain ⟨part, inSpace⟩ := List.exists_mem_of_ne_nil space nonempty
      have inOther := longer.subset (List.mem_append_left path inSpace)
      exact absurd declares (foreign.not_declares inSpace inOther)
    · rcases List.append_eq_append_iff.mp split with ⟨middle, within, rfl⟩ | ⟨middle, _, rfl⟩
      · cases middle with
        | nil => exact List.suffix_rfl
        | cons part rest =>
          have inSpace : part ∈ space := by simp [within]
          exact absurd declares (foreign.not_declares inSpace List.mem_cons_self)
      · exact List.suffix_append _ _
  · intro ending
    refine ⟨Or.inr (ending.trans (List.suffix_append _ _)), ?_⟩
    intro same
    have shorter := ending.length_le
    have positive := List.length_pos_iff.mpr nonempty
    rw [same, List.length_append] at shorter
    omega

theorem means_qualified_iff (foreign : tree.Named (· ∉ space)) (nonempty : space ≠ [])
    (declares : tree.Declares path) :
    tree.Means [] (space ++ path) (.ok entry) ↔
      tree.IsFirst path entry ∧ ∀ other, tree.Declares other → other <:+ path → other = path := by
  have agrees {other : List String} (declared : tree.Declares other) :
      Agrees other (space ++ path) ↔ other <:+ path :=
    agrees_qualified_iff foreign nonempty declared
  constructor
  · intro means
    cases means with
    | enclosed inside first => exact absurd first.declares (foreign.unscoped nonempty _ inside)
    | @only found _ unscoped foundAgrees first alone =>
      have same : path = found := alone path declares ((agrees declares).mpr List.suffix_rfl)
      subst same
      refine ⟨first, ?_⟩
      intro other declared ending
      exact alone other declared ((agrees declared).mpr ending)
  · intro ⟨first, alone⟩
    apply Means.only (foreign.unscoped nonempty) ((agrees declares).mpr List.suffix_rfl) first
    intro other declared otherAgrees
    exact alone other declared ((agrees declared).mp otherAgrees)

theorem means_qualified_ambiguous_iff (foreign : tree.Named (· ∉ space)) (nonempty : space ≠ [])
    (declares : tree.Declares path) :
    tree.Means [] (space ++ path) (.error .ambiguous) ↔
      ∃ other, tree.Declares other ∧ other <:+ path ∧ other ≠ path := by
  have agrees {other : List String} (declared : tree.Declares other) :
      Agrees other (space ++ path) ↔ other <:+ path :=
    agrees_qualified_iff foreign nonempty declared
  constructor
  · intro means
    cases means with
    | @ambiguous left right _ differ leftDeclared leftAgrees rightDeclared rightAgrees =>
      -- Two different paths agree with the name, so one of them is not the path asked for.
      by_cases same : left = path
      · refine ⟨right, rightDeclared, (agrees rightDeclared).mp rightAgrees, ?_⟩
        intro rightSame
        exact differ (same.trans rightSame.symm)
      · exact ⟨left, leftDeclared, (agrees leftDeclared).mp leftAgrees, same⟩
  · intro ⟨other, declared, ending, differ⟩
    apply Means.ambiguous (foreign.unscoped nonempty) differ declared ((agrees declared).mpr ending) declares
    exact (agrees declares).mpr List.suffix_rfl

end SourceTree

namespace DeclarationIndex

theorem get?_eq_some_iff {index : DeclarationIndex} {written : String} {entry : Entry} :
    index.get? written = some entry ↔ index.resolve [] written = .ok entry := by
  rw [get?]
  cases index.resolve [] written <;> simp [Except.toOption]

theorem get?_eq_none_of_ambiguous {index : DeclarationIndex} {written : String}
    (ambiguous : index.resolve [] written = .error .ambiguous) : index.get? written = none := by
  rw [get?, ambiguous]
  rfl

/-- What a path behind a namespace resolves to is what the names of both mean, one after another. -/
theorem resolve_qualified_iff {tree : SourceTree} (identifiers : tree.Named Path.IsIdentifier)
    {space path : List String} (nonempty : space ≠ [])
    (spaceIdentifiers : ∀ part ∈ space, Path.IsIdentifier part) (declares : tree.Declares path)
    {outcome : Except LookupError Entry} :
    (ofTree tree).resolve [] (Text.join "." space ++ "." ++ Text.join "." path) = outcome ↔
      tree.Means [] (space ++ path) outcome := by
  have named : tree.Named Path.IsPlain := fun nested member => (identifiers nested member).isPlain
  have names : Path.names (Path.ofWritten (Text.join "." (space ++ path))) = space ++ path := by
    apply Path.names_ofWritten_join (List.append_ne_nil_of_left_ne_nil nonempty path)
    intro part member
    rcases List.mem_append.mp member with inSpace | inPath
    · exact spaceIdentifiers part inSpace
    · exact identifiers.names declares part inPath
  have means : tree.Means [] (Path.names (Path.ofWritten (Text.join "." (space ++ path))))
      ((ofTree tree).resolve [] (Text.join "." (space ++ path))) :=
    resolve_means named (List.forall_mem_nil _) _
  rw [names] at means
  rw [← Path.join_append nonempty declares.ne_nil]
  constructor
  · intro resolved
    rwa [← resolved]
  · intro other
    exact means.unique other

/-- Behind a namespace of other names, a path is found if and only if no other declared path is an ending
of it, and then its first declaration is found. If another one is, the name is ambiguous and nothing is
found. -/
theorem get?_qualified_iff (tree : SourceTree) (identifiers : tree.Named Path.IsIdentifier)
    (space path : List String) (nonempty : space ≠ [])
    (spaceIdentifiers : ∀ part ∈ space, Path.IsIdentifier part) (foreign : tree.Named (· ∉ space))
    (declares : tree.Declares path) :
    (∀ entry, (ofTree tree).get? (Text.join "." space ++ "." ++ Text.join "." path) = some entry ↔
      tree.IsFirst path entry ∧ ∀ other, tree.Declares other → other <:+ path → other = path) ∧
    ((ofTree tree).resolve [] (Text.join "." space ++ "." ++ Text.join "." path) = .error .ambiguous ↔
      ∃ other, tree.Declares other ∧ other <:+ path ∧ other ≠ path) ∧
    ((∃ other, tree.Declares other ∧ other <:+ path ∧ other ≠ path) →
      (ofTree tree).get? (Text.join "." space ++ "." ++ Text.join "." path) = none) := by
  have ambiguous : (ofTree tree).resolve [] (Text.join "." space ++ "." ++ Text.join "." path) =
      .error .ambiguous ↔ ∃ other, tree.Declares other ∧ other <:+ path ∧ other ≠ path := by
    rw [resolve_qualified_iff identifiers nonempty spaceIdentifiers declares]
    exact SourceTree.means_qualified_ambiguous_iff foreign nonempty declares
  refine ⟨?_, ambiguous, fun shadowed => get?_eq_none_of_ambiguous (ambiguous.mpr shadowed)⟩
  intro entry
  rw [get?_eq_some_iff, resolve_qualified_iff identifiers nonempty spaceIdentifiers declares]
  exact SourceTree.means_qualified_iff foreign nonempty declares

theorem get?_qualified_inner :
    scopeTree.Named Path.IsIdentifier ∧ scopeTree.Named (· ∉ ["System", "Text"]) ∧
      (ofTree scopeTree).get? "System.Text.Outer.MyBase" =
        some ⟨2, "Outer.MyBase", scopeRecord "MyBase" []⟩ ∧
      scopeTree.IsFirst ["Outer", "MyBase"] ⟨2, "Outer.MyBase", scopeRecord "MyBase" []⟩ := by
  have identifiers : ∀ nested ∈ scopeTree.nested, Path.IsIdentifier nested.declaration.name := by
    decide +kernel
  have foreign : ∀ nested ∈ scopeTree.nested, nested.declaration.name ∉ ["System", "Text"] := by
    decide +kernel
  have found : (ofTree scopeTree).get? "System.Text.Outer.MyBase" =
      some ⟨2, "Outer.MyBase", scopeRecord "MyBase" []⟩ := by
    cbv
  have declares : scopeTree.Declares ["Outer", "MyBase"] :=
    ⟨⟨["Outer", "MyBase"], scopeRecord "MyBase" []⟩, List.mem_of_getElem? (i := 2) rfl, rfl⟩
  have qualified := get?_qualified_iff scopeTree identifiers ["System", "Text"] ["Outer", "MyBase"]
    (by decide) (by decide +kernel) foreign declares
  exact ⟨identifiers, foreign, found, ((qualified.1 _).mp found).1⟩

/-- A record inside another, and one of the same name at the top. -/
def twinTree : SourceTree where
  declarations := [scopeRecord "Outer" [scopeRecord "Base" []], scopeRecord "Base" []]

/-- The inner record is not found behind a namespace: both paths are endings of the name, so it is
ambiguous. -/
theorem get?_qualified_twin :
    twinTree.Named Path.IsIdentifier ∧ Path.IsIdentifier "Ns" ∧ twinTree.Named (· ∉ ["Ns"]) ∧
      twinTree.IsFirst ["Outer", "Base"] ⟨1, "Outer.Base", scopeRecord "Base" []⟩ ∧
      (ofTree twinTree).resolve [] "Ns.Outer.Base" = .error .ambiguous ∧
      (ofTree twinTree).get? "Ns.Outer.Base" = none := by
  have identifiers : ∀ nested ∈ twinTree.nested, Path.IsIdentifier nested.declaration.name := by
    decide +kernel
  have foreign : ∀ nested ∈ twinTree.nested, nested.declaration.name ∉ ["Ns"] := by
    decide +kernel
  have ambiguous : (ofTree twinTree).resolve [] "Ns.Outer.Base" = .error .ambiguous := by
    cbv
  refine ⟨identifiers, by decide +kernel, foreign, ⟨rfl, rfl, ?_⟩, ambiguous,
    get?_eq_none_of_ambiguous ambiguous⟩
  intro number earlier nested placed
  have first : number = 0 := Nat.lt_one_iff.mp earlier
  subst first
  cases placed
  decide

end DeclarationIndex

end Scribe
