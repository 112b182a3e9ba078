import Scribe.Proofs.NestedNames

/-! The order of the listing. A place in a tree is the list of numbers on the way down to it, counted
among the neighbours on each level. In the order of places a declaration comes before its members and
neighbours come as they stand in the source. The listing goes through the places in this order, and the
loop that makes it takes one turn for each of them. -/

namespace Scribe

/-- A declaration with its place and with the names that lead to it, its own being the last. -/
structure Site where
  place : List Nat
  names : List String
  declaration : Declaration

namespace Site

/-- The declaration stands there, among the siblings or inside one of them. -/
inductive Of : List Declaration → Site → Prop where
  | here {siblings : List Declaration} {number : Nat} {declaration : Declaration}
      (found : siblings[number]? = some declaration) :
      Of siblings ⟨[number], [declaration.name], declaration⟩
  | inside {siblings : List Declaration} {number : Nat} {outer : Declaration} {site : Site}
      (found : siblings[number]? = some outer) (inner : Of outer.members site) :
      Of siblings ⟨number :: site.place, outer.name :: site.names, site.declaration⟩

/-- Places are compared at the first number in which they differ; what is further in comes later. -/
def Earlier (left right : Site) : Prop :=
  List.Lex (· < ·) left.place right.place

theorem Earlier.ne {left right : Site} (earlier : left.Earlier right) : left ≠ right := by
  rintro rfl
  exact List.lex_irrefl (fun number => Nat.lt_irrefl number) _ earlier

/-- The same declaration seen from one level further out. -/
def under (number : Nat) (name : String) (site : Site) : Site :=
  ⟨number :: site.place, name :: site.names, site.declaration⟩

def nested (outer : List String) (site : Site) : Nested :=
  ⟨outer ++ site.names, site.declaration⟩

mutual

/-- The declaration with the given number among its neighbours, then everything inside it. -/
def within (number : Nat) : Declaration → List Site
  | ⟨name, kind, primary, base, members, span⟩ =>
    ⟨[number], [name], ⟨name, kind, primary, base, members, span⟩⟩ ::
      (among 0 members).map (under number name)

/-- Neighbours with everything inside them, the first of them having the given number. -/
def among (number : Nat) : List Declaration → List Site
  | [] => []
  | declaration :: rest => within number declaration ++ among (number + 1) rest

end

theorem within_eq (number : Nat) (declaration : Declaration) :
    within number declaration = ⟨[number], [declaration.name], declaration⟩ ::
      (among 0 declaration.members).map (under number declaration.name) := by
  cases declaration
  rw [within]

theorem mem_within {number : Nat} {declaration : Declaration} {site : Site} :
    site ∈ within number declaration ↔
      site = ⟨[number], [declaration.name], declaration⟩ ∨
      ∃ inner ∈ among 0 declaration.members, inner.under number declaration.name = site := by
  rw [within_eq, List.mem_cons, List.mem_map]

theorem mem_among {number : Nat} {siblings : List Declaration} {site : Site} :
    site ∈ among number siblings ↔
      ∃ offset declaration, siblings[offset]? = some declaration ∧
        site ∈ within (number + offset) declaration := by
  induction siblings generalizing number with
  | nil => simp [among]
  | cons first rest ih =>
    rw [among, List.mem_append, ih]
    constructor
    · rintro (held | ⟨offset, declaration, found, held⟩)
      · exact ⟨0, first, rfl, held⟩
      · refine ⟨offset + 1, declaration, found, ?_⟩
        rwa [Nat.add_assoc, Nat.add_comm 1 offset] at held
    · rintro ⟨offset, declaration, found, held⟩
      cases offset with
      | zero =>
        cases found
        exact Or.inl held
      | succ offset =>
        refine Or.inr ⟨offset, declaration, found, ?_⟩
        rwa [Nat.add_assoc, Nat.add_comm 1 offset]

/-- Neighbours keep their numbers in the places inside them. -/
theorem head_of_mem_within {number : Nat} {declaration : Declaration} {site : Site}
    (held : site ∈ within number declaration) : site.place.head? = some number := by
  rcases mem_within.mp held with rfl | ⟨inner, further, rfl⟩
  · rfl
  · rfl

theorem place_ne_nil_of_mem_among {number : Nat} {siblings : List Declaration} {site : Site}
    (held : site ∈ among number siblings) : site.place ≠ [] := by
  obtain ⟨offset, declaration, -, held⟩ := mem_among.mp held
  intro empty
  have head := head_of_mem_within held
  rw [empty] at head
  cases head

theorem of_mem_among {siblings : List Declaration} {site : Site} (held : site ∈ among 0 siblings) :
    Of siblings site := by
  -- Each step inwards takes one number off the place.
  induction placed : site.place generalizing siblings site with
  | nil => exact absurd placed (place_ne_nil_of_mem_among held)
  | cons number place ih =>
    obtain ⟨offset, declaration, found, held⟩ := mem_among.mp held
    rw [Nat.zero_add] at held
    rcases mem_within.mp held with rfl | ⟨inner, further, rfl⟩
    · exact .here found
    · exact .inside found (ih further (List.cons.inj placed).2)

/-- Going through siblings meets what stands among or inside them and nothing else. -/
theorem mem_among_iff {siblings : List Declaration} {site : Site} :
    site ∈ among 0 siblings ↔ Of siblings site := by
  constructor
  · exact of_mem_among
  · intro stands
    induction stands with
    | here found =>
      refine mem_among.mpr ⟨_, _, found, mem_within.mpr (Or.inl ?_)⟩
      rw [Nat.zero_add]
    | inside found inner ih =>
      refine mem_among.mpr ⟨_, _, found, mem_within.mpr (Or.inr ⟨_, ih, ?_⟩)⟩
      rw [Nat.zero_add, under]

mutual

theorem pairwise_within (number : Nat) (declaration : Declaration) :
    (within number declaration).Pairwise Earlier := by
  match declaration with
  | ⟨name, kind, primary, base, members, span⟩ =>
    rw [within, List.pairwise_cons]
    constructor
    · intro site held
      obtain ⟨inner, further, rfl⟩ := List.mem_map.mp held
      obtain ⟨first, rest, place⟩ := List.exists_cons_of_ne_nil (place_ne_nil_of_mem_among further)
      rw [Earlier, under, place]
      exact .cons .nil
    · exact (pairwise_among 0 members).map _ fun _ _ earlier => .cons earlier

theorem pairwise_among (number : Nat) (siblings : List Declaration) :
    (among number siblings).Pairwise Earlier := by
  match siblings with
  | [] => exact List.Pairwise.nil
  | declaration :: rest =>
    rw [among, List.pairwise_append]
    refine ⟨pairwise_within number declaration, pairwise_among (number + 1) rest, ?_⟩
    intro left leftHeld right rightHeld
    -- The two stand in different neighbours, so their first numbers decide.
    obtain ⟨offset, later, -, rightHeld⟩ := mem_among.mp rightHeld
    obtain ⟨leftRest, leftPlace⟩ := List.head?_eq_some_iff.mp (head_of_mem_within leftHeld)
    obtain ⟨rightRest, rightPlace⟩ := List.head?_eq_some_iff.mp (head_of_mem_within rightHeld)
    rw [Earlier, leftPlace, rightPlace]
    exact .rel (by omega)

end

mutual

theorem nested_within (outer : List String) (number : Nat) (declaration : Declaration) :
    Nested.within outer declaration = (within number declaration).map (nested outer) := by
  match declaration with
  | ⟨name, kind, primary, base, members, span⟩ =>
    have inside : nested outer ∘ under number name = nested (outer ++ [name]) := by
      funext site
      simp only [Function.comp_apply, nested, under, List.append_assoc, List.singleton_append]
    rw [Nested.within, within, List.map_cons, List.map_map, inside, nested_among (outer ++ [name]) 0 members]
    rfl

theorem nested_among (outer : List String) (number : Nat) (siblings : List Declaration) :
    Nested.withinAll outer siblings = (among number siblings).map (nested outer) := by
  match siblings with
  | [] => rfl
  | declaration :: rest =>
    rw [Nested.withinAll, among, List.map_append, nested_within outer number declaration,
      nested_among outer (number + 1) rest]

end

end Site

theorem SourceTree.listing_eq_sites (tree : SourceTree) :
    tree.listing =
      (Site.among 0 tree.declarations).map fun site => ⟨Text.join "." site.names, site.declaration⟩ := by
  rw [listing_eq_preorder, preorder_eq_nested, SourceTree.nested, Site.nested_among [] 0, List.map_map]
  rfl

/-- The loop that lists a tree. The declaration that comes next is the last one on the stack. -/
structure Walk where
  stack : List Located
  listed : List Located

namespace Walk

def start (tree : SourceTree) : Walk where
  stack := (Located.top tree).reverse
  listed := []

/-- One turn takes a declaration off the stack, lists it and puts its members on the stack in reverse.
With an empty stack there is no turn left. -/
def turn? (walk : Walk) : Option Walk :=
  walk.stack.getLast?.map fun next =>
    ⟨walk.stack.dropLast ++ next.members.reverse, walk.listed ++ [next]⟩

def turns? : (count : Nat) → Walk → Option Walk
  | 0, walk => some walk
  | count + 1, walk => walk.turn?.bind (turns? count)

theorem turn?_next (stack listed : List Located) (next : Located) :
    turn? ⟨(next :: stack).reverse, listed⟩ =
      some ⟨(next.members ++ stack).reverse, listed ++ [next]⟩ := by
  simp [turn?]

/-- The loop has its stack the other way round. As many turns as there are declarations left empty it. -/
theorem turns?_unfold (stack listed : List Located) :
    turns? (Declaration.countAll (stack.map Located.declaration)) ⟨stack.reverse, listed⟩ =
      some ⟨[], listed ++ Located.unfold stack⟩ := by
  fun_induction Located.unfold stack generalizing listed with
  | case1 => simp [Declaration.countAll, turns?]
  | case2 next stack ih =>
    have count : Declaration.countAll ((next :: stack).map Located.declaration) =
        Declaration.countAll ((next.members ++ stack).map Located.declaration) + 1 := by
      rw [List.map_append, Declaration.countAll_append, Located.map_declaration_members, List.map_cons,
        Declaration.countAll, Declaration.count_eq]
      omega
    rw [count, turns?, turn?_next, Option.bind_some, ih, List.append_assoc, List.singleton_append]

end Walk

/-- The listing is the pre-order of the tree. It has every declaration once, in the order of their
places, with the names from the top of the file down to it as its path. The loop with the stack lists one
declaration each turn and ends with the last one. -/
theorem SourceTree.listing_follows_places (tree : SourceTree) :
    tree.listing = tree.preorder ∧
    (∃ sites : List Site, (∀ site, site ∈ sites ↔ site.Of tree.declarations) ∧ sites.Nodup ∧
      sites.Pairwise Site.Earlier ∧
      tree.listing = sites.map fun site => ⟨Text.join "." site.names, site.declaration⟩) ∧
    Walk.turns? (Declaration.countAll tree.declarations) (.start tree) = some ⟨[], tree.listing⟩ ∧
    ∀ listed, Walk.turn? ⟨[], listed⟩ = none := by
  refine ⟨listing_eq_preorder tree, ⟨Site.among 0 tree.declarations, ?_, ?_, ?_, ?_⟩, ?_, fun _ => rfl⟩
  · exact fun _ => Site.mem_among_iff
  · exact (Site.pairwise_among 0 tree.declarations).imp Site.Earlier.ne
  · exact Site.pairwise_among 0 tree.declarations
  · exact listing_eq_sites tree
  · have top : (Located.top tree).map Located.declaration = tree.declarations := by
      rw [Located.top, List.map_map]
      exact List.map_id' _
    have finished := Walk.turns?_unfold (Located.top tree) []
    rwa [top] at finished

end Scribe
