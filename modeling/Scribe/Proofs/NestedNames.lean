import Scribe.Declarations.Index
import Scribe.Proofs.DottedNames

/-! Declarations by the list of names that leads to them. The stack that the listing is made with lists
a tree in pre-order, and the path of an entry is its list of names with dots in between. -/

namespace Scribe

/-- A declaration with the names that lead to it, its own being the last. -/
structure Nested where
  names : List String
  declaration : Declaration

namespace Nested

def path (nested : Nested) : String :=
  Text.join "." nested.names

mutual

/-- A declaration that stands inside others, and then everything inside it. -/
def within (outer : List String) : Declaration → List Nested
  | ⟨name, kind, primary, base, members, span⟩ =>
    ⟨outer ++ [name], ⟨name, kind, primary, base, members, span⟩⟩ ::
      withinAll (outer ++ [name]) members

def withinAll (outer : List String) : List Declaration → List Nested
  | [] => []
  | declaration :: rest => within outer declaration ++ withinAll outer rest

end

end Nested

namespace SourceTree

/-- All declarations in pre-order. -/
def nested (tree : SourceTree) : List Nested :=
  Nested.withinAll [] tree.declarations

/-- Some declaration has exactly these names. -/
def Declares (tree : SourceTree) (names : List String) : Prop :=
  ∃ nested ∈ tree.nested, nested.names = names

/-- What is allowed as the name of a declaration. -/
def Named (tree : SourceTree) (allowed : String → Prop) : Prop :=
  ∀ nested ∈ tree.nested, allowed nested.declaration.name

/-- The entry of the first declaration in pre-order with exactly these names. -/
structure IsFirst (tree : SourceTree) (names : List String) (entry : Entry) : Prop where
  placed : tree.nested[entry.number]? = some ⟨names, entry.declaration⟩
  path : entry.path = Text.join "." names
  earliest : ∀ number < entry.number, ∀ nested, tree.nested[number]? = some nested → nested.names ≠ names

theorem IsFirst.declares {tree : SourceTree} {names : List String} {entry : Entry}
    (first : tree.IsFirst names entry) : tree.Declares names :=
  ⟨_, List.mem_of_getElem? first.placed, rfl⟩

end SourceTree

namespace Located

theorem preorderOf_eq (path : String) (declaration : Declaration) :
    preorderOf path declaration = ⟨path, declaration⟩ :: preorderOfMembers path declaration.members := by
  cases declaration
  rw [preorderOf]

theorem flatMap_members (located : Located) :
    (located.members.flatMap fun member => preorderOf member.path member.declaration) =
      preorderOfMembers located.path located.declaration.members := by
  rw [members]
  induction located.declaration.members with
  | nil => rfl
  | cons member rest ih => rw [List.map_cons, List.flatMap_cons, ih, preorderOfMembers]

/-- What is on the stack is listed with everything inside it before the stack goes on. -/
theorem unfold_eq_flatMap (stack : List Located) :
    unfold stack = stack.flatMap fun located => preorderOf located.path located.declaration := by
  fun_induction unfold stack with
  | case1 => rfl
  | case2 next stack ih =>
    rw [ih, List.flatMap_append, flatMap_members, List.flatMap_cons, preorderOf_eq]
    rfl

def ofNested (nested : Nested) : Located :=
  ⟨nested.path, nested.declaration⟩

mutual

theorem preorderOf_join (outer : List String) (declaration : Declaration) :
    preorderOf (Text.join "." (outer ++ [declaration.name])) declaration =
      (Nested.within outer declaration).map ofNested := by
  match declaration with
  | ⟨name, kind, primary, base, members, span⟩ =>
    rw [preorderOf, Nested.within, List.map_cons,
      preorderOfMembers_join (outer ++ [name]) (by simp) members]
    rfl

theorem preorderOfMembers_join (outer : List String) (nonempty : outer ≠ [])
    (members : List Declaration) :
    preorderOfMembers (Text.join "." outer) members = (Nested.withinAll outer members).map ofNested := by
  match members with
  | [] => rfl
  | member :: rest =>
    have path : memberPath (Text.join "." outer) member.name = Text.join "." (outer ++ [member.name]) := by
      rw [Path.join_append nonempty (List.cons_ne_nil _ _)]
      rfl
    rw [preorderOfMembers, Nested.withinAll, List.map_append, path, preorderOf_join outer member,
      preorderOfMembers_join outer nonempty rest]

end

end Located

namespace SourceTree

theorem listing_eq_preorder (tree : SourceTree) : tree.listing = tree.preorder := by
  rw [listing, Located.unfold_eq_flatMap, Located.top, List.flatMap_map, preorder]

theorem preorder_eq_nested (tree : SourceTree) : tree.preorder = tree.nested.map Located.ofNested := by
  rw [preorder, nested]
  induction tree.declarations with
  | nil => rfl
  | cons declaration rest ih =>
    have first := Located.preorderOf_join [] declaration
    rw [List.nil_append, Text.join] at first
    rw [List.flatMap_cons, ih, first, Nested.withinAll, List.map_append]

end SourceTree

namespace Nested

mutual

theorem names_within {allowed : String → Prop} {outer : List String} {nested : Nested}
    (declaration : Declaration) (outerAllowed : ∀ name ∈ outer, allowed name)
    (named : ∀ inner ∈ within outer declaration, allowed inner.declaration.name)
    (member : nested ∈ within outer declaration) :
    nested.names ≠ [] ∧ ∀ name ∈ nested.names, allowed name := by
  match declaration with
  | ⟨own, kind, primary, base, members, span⟩ =>
    simp only [within, List.mem_cons, forall_eq_or_imp] at named member
    have extended : ∀ name ∈ outer ++ [own], allowed name := by
      intro name inside
      rcases List.mem_append.mp inside with inside | inside
      · exact outerAllowed name inside
      · rw [List.mem_singleton.mp inside]
        exact named.1
    rcases member with rfl | member
    · exact ⟨by simp, extended⟩
    · exact names_withinAll members extended named.2 member

theorem names_withinAll {allowed : String → Prop} {outer : List String} {nested : Nested}
    (declarations : List Declaration) (outerAllowed : ∀ name ∈ outer, allowed name)
    (named : ∀ inner ∈ withinAll outer declarations, allowed inner.declaration.name)
    (member : nested ∈ withinAll outer declarations) :
    nested.names ≠ [] ∧ ∀ name ∈ nested.names, allowed name := by
  match declarations with
  | [] => cases member
  | declaration :: rest =>
    simp only [withinAll, List.mem_append] at named member
    rcases member with member | member
    · exact names_within declaration outerAllowed (fun inner inside => named inner (Or.inl inside)) member
    · exact names_withinAll rest outerAllowed (fun inner inside => named inner (Or.inr inside)) member

end

end Nested

namespace SourceTree

variable {tree : SourceTree} {path : List String}

theorem Named.names_of_mem {allowed : String → Prop} {nested : Nested} (named : tree.Named allowed)
    (member : nested ∈ tree.nested) : nested.names ≠ [] ∧ ∀ name ∈ nested.names, allowed name :=
  Nested.names_withinAll tree.declarations (List.forall_mem_nil _) named member

/-- Every name on the way to a declaration is the name of a declaration. -/
theorem Named.names {allowed : String → Prop} (named : tree.Named allowed) (declares : tree.Declares path) :
    ∀ name ∈ path, allowed name := by
  obtain ⟨nested, member, rfl⟩ := declares
  exact (named.names_of_mem member).2

theorem Declares.ne_nil (declares : tree.Declares path) : path ≠ [] := by
  obtain ⟨nested, member, rfl⟩ := declares
  have anything : tree.Named fun _ => True := fun _ _ => trivial
  exact (anything.names_of_mem member).1

theorem Declares.exists_first (declares : tree.Declares path) : ∃ entry, tree.IsFirst path entry := by
  obtain ⟨nested, member, names⟩ := declares
  have some : (tree.nested.findIdx? fun nested => nested.names = path).isSome = true := by
    rw [List.findIdx?_isSome, List.any_eq_true]
    exact ⟨nested, member, decide_eq_true names⟩
  obtain ⟨number, found⟩ := Option.isSome_iff_exists.mp some
  obtain ⟨inside, holds, before⟩ := List.findIdx?_eq_some_iff_getElem.mp found
  refine ⟨⟨number, Text.join "." path, tree.nested[number].declaration⟩, ?_, rfl, ?_⟩
  · rw [List.getElem?_eq_getElem inside, ← of_decide_eq_true holds]
  · intro earlier isEarlier other placed same
    obtain ⟨inside, found⟩ := List.getElem?_eq_some_iff.mp placed
    apply before earlier isEarlier
    rw [found]
    exact decide_eq_true same

end SourceTree

namespace DeclarationIndex

variable {tree : SourceTree} {entry : Entry}

theorem entries_getElem? (tree : SourceTree) (number : Nat) :
    (ofTree tree).entries[number]? =
      tree.nested[number]?.map fun nested => ⟨number, nested.path, nested.declaration⟩ := by
  simp only [ofTree, SourceTree.listing_eq_preorder, SourceTree.preorder_eq_nested, List.getElem?_map,
    List.getElem?_zipIdx, Option.map_map, Nat.zero_add]
  rfl

theorem listed_of_placed {number : Nat} {nested : Nested} (placed : tree.nested[number]? = some nested) :
    (ofTree tree).entries[number]? = some ⟨number, nested.path, nested.declaration⟩ := by
  rw [entries_getElem?, placed, Option.map_some]

theorem nested_of_mem_entries (member : entry ∈ (ofTree tree).entries) :
    ∃ names, tree.nested[entry.number]? = some ⟨names, entry.declaration⟩ ∧
      entry.path = Text.join "." names := by
  obtain ⟨number, found⟩ := List.mem_iff_getElem?.mp member
  rw [entries_getElem?] at found
  obtain ⟨nested, placed, rfl⟩ := Option.map_eq_some_iff.mp found
  exact ⟨nested.names, placed, rfl⟩

/-- A path as text tells the list of names apart from every other. -/
theorem path_eq_iff (named : tree.Named Path.IsPlain) {nested : Nested} (member : nested ∈ tree.nested)
    (path : List Char) : nested.path = .ofList path ↔ nested.names = Path.names path := by
  have declares : tree.Declares nested.names := ⟨nested, member, rfl⟩
  constructor
  · intro same
    rw [← Path.names_join declares.ne_nil fun name inside => (named.names declares name inside).2,
      ← Nested.path, same, String.toList_ofList]
  · intro same
    rw [Nested.path, same, Path.join_names]

/-- The first entry with a path is the first declaration with the names of that path. -/
theorem atPath?_eq_some_iff (named : tree.Named Path.IsPlain) (path : List Char) :
    (ofTree tree).atPath? (.ofList path) = some entry ↔ tree.IsFirst (Path.names path) entry := by
  have same {number : Nat} {nested : Nested} (placed : tree.nested[number]? = some nested) :
      nested.path = .ofList path ↔ nested.names = Path.names path :=
    path_eq_iff named (List.mem_of_getElem? placed) path
  rw [atPath?, List.find?_eq_some_iff_getElem]
  constructor
  · rintro ⟨holds, number, inside, found, before⟩
    have listedHere : (ofTree tree).entries[number]? = some entry := by
      rw [List.getElem?_eq_getElem inside, found]
    rw [entries_getElem?] at listedHere
    obtain ⟨nested, placed, rfl⟩ := Option.map_eq_some_iff.mp listedHere
    have names := (same placed).mp (of_decide_eq_true holds)
    refine ⟨by rw [placed, ← names], by rw [← names]; rfl, ?_⟩
    intro earlier isEarlier other placedEarlier sameNames
    obtain ⟨inside, atEarlier⟩ := List.getElem?_eq_some_iff.mp (listed_of_placed placedEarlier)
    have differs := before earlier isEarlier
    rw [atEarlier, (same placedEarlier).mpr sameNames] at differs
    simp at differs
  · rintro ⟨placed, samePath, earliest⟩
    obtain ⟨inside, found⟩ := List.getElem?_eq_some_iff.mp (listed_of_placed placed)
    refine ⟨decide_eq_true (by rw [samePath, Path.join_names]), entry.number, inside, ?_, ?_⟩
    · rw [found, Nested.path, ← samePath]
    · intro earlier isEarlier
      have insideEarlier : earlier < (ofTree tree).entries.length := Nat.lt_trans isEarlier inside
      have atEarlier := List.getElem?_eq_getElem insideEarlier
      rw [entries_getElem?] at atEarlier
      obtain ⟨nested, placedEarlier, shape⟩ := Option.map_eq_some_iff.mp atEarlier
      rw [← shape, Bool.not_eq_true', decide_eq_false_iff_not, same placedEarlier]
      exact earliest earlier isEarlier nested placedEarlier

end DeclarationIndex

end Scribe
