import Mathlib.Data.List.Infix
import Mathlib.Data.List.TakeWhile
import Scribe.Declarations.Path
import Scribe.Text.Join

/-! Dotted text as a list of names. Cutting and gluing text at dots is what one does with lists: the
container drops the last name, the scopes are the beginnings, and two paths agree where one list ends
with the other. Only the empty scope of the file needs care, since an empty name looks like it. -/

namespace Scribe.Path

/-- The names between the dots of a text. There is one at least, and it may be empty. -/
def names (path : List Char) : List String :=
  (path.splitOn '.').map .ofList

/-- A name that a path can be made of. -/
def IsPlain (name : String) : Prop :=
  name ≠ "" ∧ '.' ∉ name.toList

instance (name : String) : Decidable (IsPlain name) :=
  inferInstanceAs (Decidable (_ ∧ _))

theorem join_cons_cons (first second : String) (rest : List String) :
    Text.join "." (first :: second :: rest) = first ++ "." ++ Text.join "." (second :: rest) :=
  rfl

theorem toList_join (parts : List String) :
    (Text.join "." parts).toList = ['.'].intercalate (parts.map String.toList) := by
  induction parts with
  | nil => rfl
  | cons first rest ih =>
    cases rest with
    | nil => simp [Text.join]
    | cons second rest =>
      simp only [List.map_cons] at ih
      simp [join_cons_cons, ih]

theorem join_append {left right : List String} (leftNonempty : left ≠ []) (rightNonempty : right ≠ []) :
    Text.join "." (left ++ right) = Text.join "." left ++ "." ++ Text.join "." right := by
  induction left with
  | nil => exact absurd rfl leftNonempty
  | cons first rest ih =>
    cases rest with
    | nil =>
      obtain ⟨second, others, rfl⟩ := List.exists_cons_of_ne_nil rightNonempty
      rfl
    | cons second others =>
      simp only [List.cons_append, join_cons_cons] at ih ⊢
      rw [ih (List.cons_ne_nil _ _)]
      simp only [String.append_assoc]

theorem join_eq_empty {parts : List String} (plain : ∀ part ∈ parts, IsPlain part) :
    Text.join "." parts = "" ↔ parts = [] := by
  constructor
  · intro empty
    cases parts with
    | nil => rfl
    | cons first rest =>
      have nonempty := (plain first List.mem_cons_self).1
      cases rest with
      | nil => exact absurd empty nonempty
      | cons second rest =>
        simp [join_cons_cons] at empty
  · rintro rfl
    rfl

theorem names_ne_nil (path : List Char) : names path ≠ [] := by
  simp [names, List.splitOn_ne_nil]

theorem join_names (path : List Char) : Text.join "." (names path) = .ofList path := by
  rw [← String.toList_inj, toList_join, names, List.map_map]
  simp [Function.comp_def, List.intercalate_splitOn]

theorem names_injective {left right : List Char} (same : names left = names right) : left = right := by
  rw [← String.ofList_inj, ← join_names, same, join_names]

theorem names_join {parts : List String} (nonempty : parts ≠ [])
    (undotted : ∀ part ∈ parts, '.' ∉ part.toList) : names (Text.join "." parts).toList = parts := by
  have split : (['.'].intercalate (parts.map String.toList)).splitOn '.' = parts.map String.toList :=
    List.splitOn_intercalate '.' (by simpa using undotted) (by simpa using nonempty)
  rw [names, toList_join, split, List.map_map]
  simp [Function.comp_def]

theorem names_append_dot (left right : List Char) :
    names (left ++ '.' :: right) = names left ++ names right := by
  have split := List.splitOnP_append_cons (p := (· == '.')) left right (beq_self_eq_true '.')
  rw [names, List.splitOn, split, List.map_append]
  rfl

theorem container_of_undotted {path : List Char} (undotted : '.' ∉ path) : container path = [] := by
  have dropped : path.reverse.dropWhile (· ≠ '.') = [] := by
    apply List.dropWhile_eq_nil_iff.mpr
    intro c member
    have inside := List.mem_reverse.mp member
    exact decide_eq_true fun dot => undotted (dot ▸ inside)
  rw [container, dropped]
  rfl

theorem container_append_dot (outer : List Char) {last : List Char} (undotted : '.' ∉ last) :
    container (outer ++ '.' :: last) = outer := by
  have passed : ∀ c ∈ last.reverse, (decide (c ≠ '.')) = true := by
    intro c member
    have inside := List.mem_reverse.mp member
    exact decide_eq_true fun dot => undotted (dot ▸ inside)
  have dropped : (outer ++ '.' :: last).reverse.dropWhile (· ≠ '.') = '.' :: outer.reverse := by
    rw [List.reverse_append, List.reverse_cons, List.append_assoc, List.dropWhile_append_of_pos passed]
    simp
  rw [container, dropped, List.drop_one, List.tail_cons, List.reverse_reverse]

theorem container_join_concat (outer : List String) {last : String} (undotted : '.' ∉ last.toList) :
    container (Text.join "." (outer ++ [last])).toList = (Text.join "." outer).toList := by
  cases outer with
  | nil => exact container_of_undotted undotted
  | cons first rest =>
    rw [join_append (List.cons_ne_nil _ _) (List.cons_ne_nil _ _)]
    simpa [Text.join] using container_append_dot (Text.join "." (first :: rest)).toList undotted

theorem container_join {parts : List String} (undotted : ∀ part ∈ parts, '.' ∉ part.toList) :
    container (Text.join "." parts).toList = (Text.join "." parts.dropLast).toList := by
  rcases List.eq_nil_or_concat parts with rfl | ⟨outer, last, rfl⟩
  · rfl
  · rw [List.concat_eq_append] at undotted ⊢
    rw [List.dropLast_concat]
    exact container_join_concat outer (undotted last (by simp))

theorem scopes_join_nil : scopes (Text.join "." []).toList = [[]] := by
  rw [scopes]
  rfl

/-- The scope that a path names comes first, then those of its container. -/
theorem scopes_join_concat {outer : List String} {last : String}
    (plain : ∀ part ∈ outer ++ [last], IsPlain part) :
    scopes (Text.join "." (outer ++ [last])).toList =
      (Text.join "." (outer ++ [last])).toList :: scopes (Text.join "." outer).toList := by
  have nonempty : (Text.join "." (outer ++ [last])).toList ≠ [] := by
    intro empty
    have nothing := (join_eq_empty plain).mp (String.toList_eq_nil_iff.mp empty)
    simp at nothing
  rw [scopes, if_neg nonempty, container_join_concat outer (plain last (by simp)).2]

theorem names_qualify {outer : List String} (plain : ∀ part ∈ outer, IsPlain part) (name : List Char) :
    names (qualify (Text.join "." outer).toList name) = outer ++ names name := by
  by_cases file : outer = []
  · subst file
    rfl
  · have nonempty : (Text.join "." outer).toList ≠ [] := by
      intro empty
      exact file ((join_eq_empty plain).mp (String.toList_eq_nil_iff.mp empty))
    rw [qualify, if_neg nonempty, names_append_dot, names_join file fun part member => (plain part member).2]

theorem dot_suffix_iff {name path : List Char} :
    '.' :: name <:+ path ↔ names name <:+ names path ∧ names name ≠ names path := by
  constructor
  · rintro ⟨front, rfl⟩
    rw [names_append_dot]
    refine ⟨List.suffix_append _ _, ?_⟩
    intro same
    exact names_ne_nil front (List.self_eq_append_left.mp same)
  · rintro ⟨⟨front, split⟩, differ⟩
    have nonempty : front ≠ [] := by
      rintro rfl
      exact differ split
    have glued : String.ofList path = Text.join "." front ++ "." ++ .ofList name := by
      rw [← join_names path, ← split, join_append nonempty (names_ne_nil name), join_names]
    have text := congrArg String.toList glued
    simp only [String.toList_ofList, String.toList_append] at text
    refine ⟨(Text.join "." front).toList, ?_⟩
    rw [text]
    simp

/-- One of the two lists of names ends with the other. -/
theorem agree_iff {path name : List Char} :
    agree path name = true ↔
      (names name <:+ names path ∧ names name ≠ names path) ∨ names path <:+ names name := by
  simp only [agree, Bool.or_eq_true, List.isSuffixOf_iff_suffix, List.suffix_cons_iff, List.cons.injEq,
    true_and, dot_suffix_iff]
  constructor
  · rintro (longer | rfl | shorter)
    · exact Or.inl longer
    · exact Or.inr List.suffix_rfl
    · exact Or.inr shorter.1
  · rintro (longer | shorter)
    · exact Or.inl longer
    · by_cases same : names path = names name
      · exact Or.inr (Or.inl (names_injective same))
      · exact Or.inr (Or.inr ⟨shorter, same⟩)

end Scribe.Path
