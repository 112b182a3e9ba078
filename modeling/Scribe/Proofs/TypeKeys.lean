import Mathlib.Data.List.Forall2
import Scribe.Memo.Key
import Scribe.Proofs.TextCuts

/-! Keys of generic instances tell types apart. The type arguments of a key are texts, but no text has
two readings: a name ends at the first mark behind it, and the brackets and commas between names give
the tree back. -/

namespace Scribe

namespace TypeSymbol

/-- The characters that the display sets between names. -/
def isMark (c : Char) : Bool :=
  c = '<' || c = '>' || c = ','

def Markless (text : String) : Prop :=
  ∀ c ∈ text.toList, isMark c = false

instance (text : String) : Decidable (Markless text) :=
  List.decidableBAll _ _

mutual

/-- The names and containers of a type and of its arguments, at every depth. -/
def texts : TypeSymbol → List String
  | ⟨name, container, arguments⟩ => name :: container.toList ++ argumentTexts arguments

def argumentTexts : List TypeSymbol → List String
  | [] => []
  | type :: rest => texts type ++ argumentTexts rest

end

/-- No name or container holds a mark, at any depth. -/
def Plain (type : TypeSymbol) : Prop :=
  ∀ text ∈ type.texts, Markless text

instance (type : TypeSymbol) : Decidable type.Plain :=
  List.decidableBAll _ _

/-- The same type, up to how its qualified name is divided into container and name. -/
inductive Same : TypeSymbol → TypeSymbol → Prop where
  | intro {left right : TypeSymbol} (names : left.qualifiedName = right.qualifiedName)
      (arguments : List.Forall₂ Same left.arguments right.arguments) : Same left right

theorem Plain.markless {type : TypeSymbol} (plain : Plain type) : Markless type.qualifiedName := by
  obtain ⟨name, container, arguments⟩ := type
  have named : Markless name := plain name (by simp [texts])
  unfold qualifiedName
  split
  next => exact named
  next text held =>
    cases held
    have contained : Markless text := plain text (by simp [texts])
    split
    next => exact named
    next =>
      intro c member
      simp only [String.toList_append, List.mem_append] at member
      rcases member with (member | dot) | member
      · exact contained c member
      · rw [List.mem_singleton.mp dot]
        rfl
      · exact named c member

theorem texts_subset_argumentTexts {argument : TypeSymbol} {arguments : List TypeSymbol}
    (member : argument ∈ arguments) : argument.texts ⊆ argumentTexts arguments := by
  induction arguments with
  | nil => cases member
  | cons first rest ih =>
    rw [argumentTexts]
    rcases List.mem_cons.mp member with rfl | member
    · exact List.subset_append_left _ _
    · exact List.subset_append_of_subset_right _ (ih member)

theorem Plain.inside {type : TypeSymbol} (plain : Plain type) :
    ∀ argument ∈ type.arguments, Plain argument := by
  obtain ⟨name, container, arguments⟩ := type
  intro argument member text found
  apply plain
  rw [texts]
  exact List.mem_append_right _ (texts_subset_argumentTexts member found)

/-- What stands behind an argument up to the closing bracket, if `rest` are the arguments after it. -/
def remaining : (rest : List TypeSymbol) → List Char
  | [] => ['>']
  | next :: rest => ',' :: ' ' :: next.display.toList ++ remaining rest

/-- The type arguments as they are displayed behind a name. -/
def bracketed : (arguments : List TypeSymbol) → List Char
  | [] => []
  | first :: rest => '<' :: first.display.toList ++ remaining rest

theorem toList_join_displays (first : TypeSymbol) (rest : List TypeSymbol) :
    (Text.join ", " (displays (first :: rest))).toList ++ ['>'] = first.display.toList ++ remaining rest := by
  induction rest generalizing first with
  | nil => simp [displays, Text.join, remaining]
  | cons next rest ih =>
    have others := ih next
    simp only [displays] at others
    simp [displays, Text.join, remaining, ← others]

theorem toList_display (type : TypeSymbol) :
    type.display.toList = type.qualifiedName.toList ++ bracketed type.arguments := by
  obtain ⟨name, container, arguments⟩ := type
  cases arguments with
  | nil => simp [display, bracketed]
  | cons first rest => simp [display, bracketed, ← toList_join_displays]

/-- Nothing, or a mark that cannot open brackets: what may stand behind a type. -/
def Closes (rest : List Char) : Prop :=
  ∀ c, rest.head? = some c → c = ',' ∨ c = '>'

theorem closes_remaining (rest : List TypeSymbol) (text : List Char) : Closes (remaining rest ++ text) := by
  intro c first
  cases rest with
  | nil =>
    cases first
    exact Or.inr rfl
  | cons =>
    cases first
    exact Or.inl rfl

theorem isMark_of_bracketed {arguments : List TypeSymbol} {rest : List Char} (closes : Closes rest) {c : Char}
    (first : (bracketed arguments ++ rest).head? = some c) : isMark c = true := by
  cases arguments with
  | nil => rcases closes c first with rfl | rfl <;> rfl
  | cons =>
    cases first
    rfl

mutual

/-- Two displays that begin a text alike, each followed by what closes it, are displays of the same type. -/
theorem same_of_display : (left : TypeSymbol) → ∀ {right : TypeSymbol} {leftRest rightRest : List Char},
    Plain left → Plain right → Closes leftRest → Closes rightRest →
    left.display.toList ++ leftRest = right.display.toList ++ rightRest →
    Same left right ∧ leftRest = rightRest
  | ⟨name, container, arguments⟩, right, leftRest, rightRest => by
    intro leftPlain rightPlain leftCloses rightCloses equal
    simp only [toList_display, List.append_assoc] at equal
    obtain ⟨names, equal⟩ := Text.cut_at_mark leftPlain.markless rightPlain.markless
      (fun _ first => isMark_of_bracketed leftCloses first)
      (fun _ first => isMark_of_bracketed rightCloses first) equal
    obtain ⟨arguments, rests⟩ := same_of_bracketed arguments leftPlain.inside rightPlain.inside
      leftCloses rightCloses equal
    exact ⟨.intro (String.toList_inj.mp names) arguments, rests⟩

theorem same_of_bracketed : (lefts : List TypeSymbol) → ∀ {rights : List TypeSymbol} {leftRest rightRest : List Char},
    (∀ argument ∈ lefts, Plain argument) → (∀ argument ∈ rights, Plain argument) →
    Closes leftRest → Closes rightRest → bracketed lefts ++ leftRest = bracketed rights ++ rightRest →
    List.Forall₂ Same lefts rights ∧ leftRest = rightRest
  | [], rights, leftRest, rightRest => by
    intro _ _ leftCloses _ equal
    cases rights with
    | nil => exact ⟨.nil, equal⟩
    | cons other others =>
      -- What closes the type on the left would have to open brackets.
      have opened : leftRest.head? = some '<' := by
        simp only [bracketed, List.nil_append] at equal
        rw [equal]
        rfl
      exact absurd (leftCloses _ opened) (by decide)
  | left :: lefts, rights, leftRest, rightRest => by
    intro leftPlain rightPlain _ rightCloses equal
    cases rights with
    | nil =>
      have opened : rightRest.head? = some '<' := by
        simp only [bracketed, List.nil_append] at equal
        rw [← equal]
        rfl
      exact absurd (rightCloses _ opened) (by decide)
    | cons right rights =>
      rw [List.forall_mem_cons] at leftPlain rightPlain
      simp only [bracketed, List.cons_append, List.append_assoc, List.cons.injEq, true_and] at equal
      obtain ⟨first, equal⟩ := same_of_display left leftPlain.1 rightPlain.1 (closes_remaining _ _)
        (closes_remaining _ _) equal
      obtain ⟨others, rests⟩ := same_of_remaining lefts leftPlain.2 rightPlain.2 equal
      exact ⟨.cons first others, rests⟩

theorem same_of_remaining : (lefts : List TypeSymbol) → ∀ {rights : List TypeSymbol} {leftRest rightRest : List Char},
    (∀ argument ∈ lefts, Plain argument) → (∀ argument ∈ rights, Plain argument) →
    remaining lefts ++ leftRest = remaining rights ++ rightRest →
    List.Forall₂ Same lefts rights ∧ leftRest = rightRest
  | [], rights, leftRest, rightRest => by
    intro _ _ equal
    cases rights with
    | nil => exact ⟨.nil, by simpa [remaining] using equal⟩
    | cons => simp [remaining] at equal
  | left :: lefts, rights, leftRest, rightRest => by
    intro leftPlain rightPlain equal
    cases rights with
    | nil => simp [remaining] at equal
    | cons right rights =>
      rw [List.forall_mem_cons] at leftPlain rightPlain
      simp only [remaining, List.cons_append, List.append_assoc, List.cons.injEq, true_and] at equal
      obtain ⟨first, equal⟩ := same_of_display left leftPlain.1 rightPlain.1 (closes_remaining _ _)
        (closes_remaining _ _) equal
      obtain ⟨others, rests⟩ := same_of_remaining lefts leftPlain.2 rightPlain.2 equal
      exact ⟨.cons first others, rests⟩

end

theorem display_of_displays {left right : TypeSymbol} (names : left.qualifiedName = right.qualifiedName)
    (arguments : displays left.arguments = displays right.arguments) : left.display = right.display := by
  apply String.toList_inj.mp
  rw [toList_display, toList_display, names]
  congr 1
  cases lefts : left.arguments with
  | nil =>
    cases rights : right.arguments with
    | nil => rfl
    | cons => simp [lefts, rights, displays] at arguments
  | cons =>
    cases rights : right.arguments with
    | nil => simp [lefts, rights, displays] at arguments
    | cons =>
      rw [lefts, rights] at arguments
      simp only [bracketed, List.cons_append, ← toList_join_displays, arguments]

mutual

theorem display_of_same : (left : TypeSymbol) → ∀ {right : TypeSymbol}, Same left right →
    left.display = right.display
  | ⟨name, container, arguments⟩, right => by
    rintro ⟨names, same⟩
    exact display_of_displays names (displays_of_same arguments same)

theorem displays_of_same : (lefts : List TypeSymbol) → ∀ {rights : List TypeSymbol},
    List.Forall₂ Same lefts rights → displays lefts = displays rights
  | [], _ => by
    rintro ⟨⟩
    rfl
  | left :: lefts, _ => by
    rintro (_ | ⟨first, others⟩)
    rw [displays, displays, display_of_same left first, displays_of_same lefts others]

end

theorem displays_eq_map (types : List TypeSymbol) : displays types = types.map display := by
  induction types with
  | nil => rw [displays, List.map_nil]
  | cons type rest ih => rw [displays, List.map_cons, ih]

theorem same_of_map_display {lefts rights : List TypeSymbol} (leftPlain : ∀ type ∈ lefts, Plain type)
    (rightPlain : ∀ type ∈ rights, Plain type) (equal : lefts.map display = rights.map display) :
    List.Forall₂ Same lefts rights := by
  induction lefts generalizing rights with
  | nil =>
    rw [List.map_nil, eq_comm, List.map_eq_nil_iff] at equal
    rw [equal]
    exact .nil
  | cons left lefts ih =>
    obtain ⟨right, others, rfl, first, rest⟩ := List.map_eq_cons_iff.mp equal.symm
    rw [List.forall_mem_cons] at leftPlain rightPlain
    have nothing : Closes [] := nofun
    have same := same_of_display left leftPlain.1 rightPlain.1 nothing nothing (by rw [first])
    exact .cons same.1 (ih leftPlain.2 rightPlain.2 rest.symm)

end TypeSymbol

namespace InstantiationKey

/-- If no name holds a mark, two types have one key exactly when they are the same type. -/
theorem ofType_eq_iff_same {left right : TypeSymbol} (leftPlain : left.Plain) (rightPlain : right.Plain) :
    ofType left = ofType right ↔ left.Same right := by
  constructor
  · intro equal
    obtain ⟨names, arguments⟩ := InstantiationKey.mk.inj equal
    exact .intro names (TypeSymbol.same_of_map_display leftPlain.inside rightPlain.inside arguments)
  · rintro ⟨names, arguments⟩
    have displayed := TypeSymbol.displays_of_same _ arguments
    rw [TypeSymbol.displays_eq_map, TypeSymbol.displays_eq_map] at displayed
    simp only [ofType, names, displayed]

/-- `Data.Tables.Map<, List<X.a b>>`, its first argument having no name at all. -/
def tablesMap : TypeSymbol :=
  ⟨"Map", some "Data.Tables", [⟨"", some "", []⟩, ⟨"List", none, [⟨"a b", some "X", []⟩]⟩]⟩

/-- The same type with its names divided in other places. -/
def dataMap : TypeSymbol :=
  ⟨"Tables.Map", some "Data", [⟨"", none, []⟩, ⟨"List", some "", [⟨"X.a b", none, []⟩]⟩]⟩

/-- Another type: its list has one more argument without a name. -/
def widerMap : TypeSymbol :=
  ⟨"Map", some "Data.Tables", [⟨"", none, []⟩, ⟨"List", none, [⟨"X.a b", none, []⟩, ⟨"", none, []⟩]⟩]⟩

theorem ofType_maps : tablesMap.Plain ∧ dataMap.Plain ∧ widerMap.Plain ∧
    ofType tablesMap = ofType dataMap ∧ tablesMap.Same dataMap ∧ ¬ tablesMap.Same widerMap := by
  have tables : tablesMap.Plain := by decide
  have data : dataMap.Plain := by decide
  have wider : widerMap.Plain := by decide
  have keys : ofType tablesMap = ofType dataMap := by decide
  have different : ofType tablesMap ≠ ofType widerMap := by decide
  exact ⟨tables, data, wider, keys, (ofType_eq_iff_same tables data).mp keys,
    fun same => different ((ofType_eq_iff_same tables wider).mpr same)⟩

end InstantiationKey

end Scribe
