import Scribe.Source.Declaration

/-!
The declarations of a source tree in order, nested ones after the one that holds them, each with the
path of names that leads to it. `listing` keeps the declarations still to come on a stack;
`preorder` is the same list by recursion on the tree.
-/

namespace Scribe

namespace Declaration

mutual

/-- The number of declarations in a declaration, itself included. -/
def count : Declaration → Nat
  | ⟨_, _, _, _, members, _⟩ => 1 + countAll members

def countAll : List Declaration → Nat
  | [] => 0
  | declaration :: rest => count declaration + countAll rest

end

theorem count_eq (declaration : Declaration) :
    declaration.count = 1 + countAll declaration.members := by
  cases declaration
  simp only [count]

theorem countAll_append (left right : List Declaration) :
    countAll (left ++ right) = countAll left + countAll right := by
  induction left with
  | nil => simp only [List.nil_append, countAll, Nat.zero_add]
  | cons first rest ih => simp only [List.cons_append, countAll, ih, Nat.add_assoc]

end Declaration

/-- A declaration with the dotted path to it. -/
structure Located where
  path : String
  declaration : Declaration

namespace Located

def memberPath (path name : String) : String :=
  path ++ "." ++ name

/-- The members of a declaration, each with its own path. -/
def members (located : Located) : List Located :=
  located.declaration.members.map fun member =>
    ⟨memberPath located.path member.name, member⟩

def top (tree : SourceTree) : List Located :=
  tree.declarations.map fun declaration => ⟨declaration.name, declaration⟩

theorem map_declaration_members (located : Located) :
    located.members.map declaration = located.declaration.members := by
  simp only [members, List.map_map]
  exact List.map_id' _

/-- Takes the declarations on the stack one by one, putting the members of each in its place. -/
def unfold : (stack : List Located) → List Located
  | [] => []
  | next :: stack => next :: unfold (next.members ++ stack)
termination_by stack => Declaration.countAll (stack.map declaration)
decreasing_by
  simp only [List.map_append, List.map_cons, Declaration.countAll_append, Declaration.countAll,
    map_declaration_members, Declaration.count_eq]
  omega

mutual

/-- A declaration, then everything inside it. -/
def preorderOf (path : String) : Declaration → List Located
  | ⟨name, kind, primary, base, members, span⟩ =>
    ⟨path, ⟨name, kind, primary, base, members, span⟩⟩ :: preorderOfMembers path members

def preorderOfMembers (path : String) : List Declaration → List Located
  | [] => []
  | member :: rest =>
    preorderOf (memberPath path member.name) member ++ preorderOfMembers path rest

end

end Located

namespace SourceTree

def listing (tree : SourceTree) : List Located :=
  Located.unfold (Located.top tree)

def preorder (tree : SourceTree) : List Located :=
  tree.declarations.flatMap fun declaration => Located.preorderOf declaration.name declaration

end SourceTree

end Scribe
