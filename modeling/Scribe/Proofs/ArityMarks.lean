import Mathlib.Data.List.Induction
import Scribe.Proofs.NameCharacters

/-! Arity marks in a name that is cleaned. Cleaning reads a name from its start and remembers only whether
the last character belongs to a mark. That is enough to find every mark in its whole length, and it is all
that one part of a name can tell the next part about itself. -/

namespace Scribe

/-- A backquote with the digits behind it, if there are any. -/
def IsMark (mark : List Char) : Prop :=
  ∃ digits, mark = '\x60' :: digits ∧ ∀ d ∈ digits, d.isDigit = true

structure MarkAt (text : List Char) (start : Nat) (mark : List Char) : Prop where
  isMark : IsMark mark
  placed : mark <+: text.drop start

/-- No mark of the text covers this one and more. -/
structure MaximalMark (text : List Char) (start : Nat) (mark : List Char) : Prop extends
    MarkAt text start mark where
  maximal : ∀ otherStart other, MarkAt text otherStart other → otherStart ≤ start →
    start + mark.length ≤ otherStart + other.length → otherStart = start ∧ other = mark

/-- The character at this place belongs to a maximal mark. -/
def InMark (text : List Char) (place : Nat) : Prop :=
  ∃ start mark, MaximalMark text start mark ∧ start ≤ place ∧ place < start + mark.length

def EndsInMark (text : List Char) : Prop :=
  ∃ mark, IsMark mark ∧ mark <:+ text

/-- Whether a character belongs to a mark, if it is known whether the one before it does. -/
def nextInArity (inArity : Bool) (c : Char) : Bool :=
  c = '\x60' || (inArity && c.isDigit)

theorem sanitizedChars_cons (inArity : Bool) (c : Char) (rest : List Char) :
    sanitizedChars inArity (c :: rest) =
      (if nextInArity inArity c then [] else [identifierChar c]) ++
        sanitizedChars (nextInArity inArity c) rest := by
  by_cases backquote : c = '\x60'
  · simp [sanitizedChars, nextInArity, backquote]
  · by_cases digit : (inArity && c.isDigit) = true
    · simp [sanitizedChars, nextInArity, backquote, digit]
    · simp [sanitizedChars, nextInArity, backquote, digit]

theorem sanitizedChars_append (inArity : Bool) (front back : List Char) :
    sanitizedChars inArity (front ++ back) =
      sanitizedChars inArity front ++ sanitizedChars (front.foldl nextInArity inArity) back := by
  induction front generalizing inArity with
  | nil => rfl
  | cons c front ih =>
    rw [List.cons_append, sanitizedChars_cons, ih, sanitizedChars_cons, List.append_assoc, List.foldl_cons]

theorem endsInMark_concat {text : List Char} {c : Char} :
    EndsInMark (text ++ [c]) ↔ c = '\x60' ∨ EndsInMark text ∧ c.isDigit = true := by
  constructor
  · intro ⟨mark, ⟨digits, shape, all⟩, ending⟩
    rcases List.suffix_concat_iff.mp ending with empty | ⟨front, whole, inside⟩
    · rw [shape] at empty
      cases empty
    · rw [shape] at whole
      cases front with
      | nil =>
        cases whole
        exact Or.inl rfl
      | cons first others =>
        obtain ⟨same, rfl⟩ := List.cons.inj whole
        refine Or.inr ⟨⟨first :: others, ⟨others, ?_, ?_⟩, inside⟩, ?_⟩
        · rw [same]
        · exact fun d member => all d (List.mem_append_left _ member)
        · exact all c (List.mem_append_right _ List.mem_cons_self)
  · intro marked
    rcases marked with rfl | ⟨⟨mark, ⟨digits, shape, all⟩, inside⟩, digit⟩
    · exact ⟨['\x60'], ⟨[], rfl, List.forall_mem_nil _⟩, List.suffix_append _ _⟩
    · refine ⟨mark ++ [c], ⟨digits ++ [c], ?_, ?_⟩, ?_⟩
      · rw [shape, List.cons_append]
      · exact List.forall_mem_append.mpr ⟨all, List.forall_mem_singleton.mpr digit⟩
      · exact List.suffix_concat_iff.mpr (Or.inr ⟨mark, rfl, inside⟩)

theorem not_endsInMark_nil : ¬ EndsInMark [] := by
  intro ⟨mark, ⟨digits, shape, _⟩, inside⟩
  rw [shape, List.suffix_nil] at inside
  cases inside

theorem foldl_nextInArity_iff (text : List Char) :
    text.foldl nextInArity false = true ↔ EndsInMark text := by
  induction text using List.reverseRecOn with
  | nil => exact iff_of_false Bool.false_ne_true not_endsInMark_nil
  | append_singleton text c ih =>
    rw [List.foldl_append, List.foldl_cons, List.foldl_nil, nextInArity, Bool.or_eq_true, Bool.and_eq_true,
      decide_eq_true_eq, ih, endsInMark_concat]

instance (text : List Char) : Decidable (EndsInMark text) :=
  decidable_of_iff _ (foldl_nextInArity_iff text)

theorem MarkAt.isDigit_of_inside {text mark : List Char} {start place : Nat} (held : MarkAt text start mark)
    (behind : start < place) (inside : place < start + mark.length) :
    ∃ d, text[place]? = some d ∧ d.isDigit = true := by
  obtain ⟨⟨digits, shape, all⟩, rest, split⟩ := held
  obtain ⟨offset, rfl⟩ : ∃ offset, place = start + (offset + 1) := ⟨place - start - 1, by omega⟩
  have bound : offset < digits.length := by
    rw [shape, List.length_cons] at inside
    omega
  refine ⟨digits[offset], ?_, all _ (List.getElem_mem bound)⟩
  rw [← List.getElem?_drop, ← split, shape, List.cons_append, List.getElem?_cons_succ,
    List.getElem?_append_left bound, List.getElem?_eq_getElem bound]

/-- The longest mark that starts with a backquote takes all the digits behind it. -/
theorem maximalMark_of_backquote {text tail : List Char} {start : Nat}
    (backquote : text.drop start = '\x60' :: tail) :
    MaximalMark text start ('\x60' :: tail.takeWhile Char.isDigit) := by
  refine ⟨⟨⟨_, rfl, ?_⟩, ?_⟩, ?_⟩
  · exact List.all_eq_true.mp List.all_takeWhile
  · rw [backquote]
    exact List.cons_prefix_cons.mpr ⟨rfl, List.takeWhile_prefix _⟩
  · intro otherStart other marked before covers
    rw [List.length_cons] at covers
    -- A mark that starts earlier has a digit here.
    have same : otherStart = start := by
      by_contra different
      have earlier : otherStart < start := by omega
      obtain ⟨d, found, digit⟩ := marked.isDigit_of_inside earlier (by omega)
      have first : text[start]? = some '\x60' := by
        rw [← List.head?_drop, backquote, List.head?_cons]
      rw [first] at found
      cases found
      exact absurd digit (by decide)
    subst same
    obtain ⟨⟨digits, rfl, all⟩, placed⟩ := marked
    rw [backquote] at placed
    obtain ⟨more, rfl⟩ := (List.cons_prefix_cons.mp placed).2
    rw [List.takeWhile_append_of_pos all] at covers ⊢
    have nothing : more.takeWhile Char.isDigit = [] := by
      apply List.eq_nil_of_length_eq_zero
      rw [List.length_append, List.length_cons] at covers
      omega
    rw [nothing, List.append_nil]
    exact ⟨rfl, rfl⟩

theorem IsMark.take {mark : List Char} (isMark : IsMark mark) {length : Nat} (positive : 0 < length) :
    IsMark (mark.take length) := by
  obtain ⟨digits, rfl, all⟩ := isMark
  obtain ⟨rest, rfl⟩ := Nat.exists_eq_add_of_lt positive
  refine ⟨digits.take rest, ?_, fun d member => all d (List.mem_of_mem_take member)⟩
  rw [Nat.zero_add, List.take_succ_cons]

/-- A character belongs to a mark if the text up to it ends in one. -/
theorem inMark_iff {text : List Char} {place : Nat} :
    InMark text place ↔ place < text.length ∧ EndsInMark (text.take (place + 1)) := by
  constructor
  · intro ⟨start, mark, ⟨⟨isMark, more, split⟩, _⟩, reached, unpassed⟩
    have total := congrArg List.length split
    rw [List.length_append, List.length_drop] at total
    have cut : text.take (place + 1) = text.take start ++ mark.take (place + 1 - start) := by
      calc text.take (place + 1) = text.take (start + (place + 1 - start)) := by
            rw [Nat.add_sub_of_le (by omega)]
        _ = text.take start ++ (text.drop start).take (place + 1 - start) := List.take_add
        _ = text.take start ++ mark.take (place + 1 - start) := by
            rw [← split, List.take_append_of_le_length (by omega)]
    exact ⟨by omega, _, isMark.take (by omega), _, cut.symm⟩
  · intro ⟨inside, mark, ⟨digits, shape, all⟩, front, split⟩
    subst shape
    have whole : front ++ '\x60' :: (digits ++ text.drop (place + 1)) = text := by
      rw [← List.cons_append, ← List.append_assoc, split, List.take_append_drop]
    have backquote : text.drop front.length = '\x60' :: (digits ++ text.drop (place + 1)) := by
      calc text.drop front.length =
            (front ++ '\x60' :: (digits ++ text.drop (place + 1))).drop front.length := by rw [whole]
        _ = '\x60' :: (digits ++ text.drop (place + 1)) := List.drop_left
    have total := congrArg List.length split
    rw [List.length_append, List.length_cons, List.length_take] at total
    refine ⟨front.length, _, maximalMark_of_backquote backquote, by omega, ?_⟩
    rw [List.takeWhile_append_of_pos all, List.length_cons, List.length_append]
    omega

instance (text : List Char) (place : Nat) : Decidable (InMark text place) :=
  decidable_of_iff' _ inMark_iff

/-- The characters that belong to no mark. -/
def unmarked (text : List Char) : List Char :=
  (text.zipIdx.filter fun entry => ¬ InMark text entry.2).map Prod.fst

theorem inMark_next (done : List Char) (c : Char) (rest : List Char) :
    InMark (done ++ c :: rest) done.length ↔ nextInArity (done.foldl nextInArity false) c = true := by
  have upTo : (done ++ c :: rest).take (done.length + 1) = done ++ [c] := by
    rw [List.append_cons, List.take_left' (by simp)]
  rw [inMark_iff, upTo, ← foldl_nextInArity_iff, List.foldl_append]
  simp

theorem sanitizedChars_eq_map (done rest : List Char) :
    sanitizedChars (done.foldl nextInArity false) rest =
      ((rest.zipIdx done.length).filter fun entry => ¬ InMark (done ++ rest) entry.2).map
        fun entry => identifierChar entry.1 := by
  -- Induction on what is still to be read; what was read decides whether the next character is in a mark.
  induction rest generalizing done with
  | nil => rfl
  | cons c rest ih =>
    have later := ih (done ++ [c])
    rw [List.foldl_append, List.foldl_cons, List.foldl_nil, List.length_append, List.length_singleton,
      ← List.append_cons] at later
    rw [sanitizedChars_cons, later, List.zipIdx_cons, List.filter_cons]
    by_cases marked : nextInArity (done.foldl nextInArity false) c = true
    · simp [marked, (inMark_next done c rest).mpr marked]
    · simp [marked, mt (inMark_next done c rest).mp marked]

theorem toList_sanitize (name : String) :
    (sanitize name).toList = (unmarked name.toList).map identifierChar := by
  rw [sanitize, String.toList_ofList, unmarked, List.map_map]
  exact sanitizedChars_eq_map [] name.toList

theorem ofIdentifier_sanitize (name : String) : OfIdentifier (sanitize name).toList := by
  rw [sanitize, String.toList_ofList]
  exact .sanitizedChars false name.toList

theorem sanitizedChars_of_ofIdentifier {text : List Char} (held : OfIdentifier text) :
    sanitizedChars false text = text := by
  induction text with
  | nil => rfl
  | cons c text ih =>
    obtain ⟨own, others⟩ := List.forall_mem_cons.mp held
    have notBackquote : c ≠ '\x60' := by
      intro same
      rw [same] at own
      exact absurd own (by decide)
    rw [sanitizedChars, if_neg notBackquote, Bool.false_and, if_neg Bool.false_ne_true, ih others,
      identifierChar, if_pos own]

theorem sanitize_eq_self_iff {name : String} : sanitize name = name ↔ OfIdentifier name.toList := by
  constructor
  · intro same
    rw [← same]
    exact ofIdentifier_sanitize name
  · intro held
    rw [sanitize, sanitizedChars_of_ofIdentifier held, String.ofList_toList]

theorem nextInArity_of_isDigit {c : Char} (digit : c.isDigit = true) (inArity : Bool) :
    nextInArity inArity c = inArity := by
  have notBackquote : c ≠ '\x60' := by
    intro same
    rw [same] at digit
    exact absurd digit (by decide)
  simp [nextInArity, notBackquote, digit]

theorem nextInArity_of_not_isDigit {c : Char} (other : c.isDigit = false) (inArity : Bool) :
    nextInArity inArity c = nextInArity false c := by
  simp [nextInArity, other]

theorem length_sanitizedChars_le (text : List Char) :
    (sanitizedChars true text).length ≤ (sanitizedChars false text).length := by
  induction text with
  | nil => exact Nat.le_refl _
  | cons c text ih =>
    rw [sanitizedChars_cons, sanitizedChars_cons]
    cases digit : c.isDigit with
    | false => rw [nextInArity_of_not_isDigit digit]
    | true =>
      simp only [nextInArity_of_isDigit digit, if_true, List.nil_append, List.length_append]
      exact Nat.le_add_left_of_le ih

def StartsWithDigit (text : List Char) : Prop :=
  ∃ d rest, text = d :: rest ∧ d.isDigit = true

/-- A mark before the text takes something from it if and only if the text starts with a digit. -/
theorem sanitizedChars_true_eq_iff {text : List Char} :
    sanitizedChars true text = sanitizedChars false text ↔ ¬ StartsWithDigit text := by
  constructor
  · intro same ⟨d, rest, shape, digit⟩
    have lengths := congrArg List.length same
    rw [shape, sanitizedChars_cons, sanitizedChars_cons, nextInArity_of_isDigit digit,
      nextInArity_of_isDigit digit] at lengths
    have shorter := length_sanitizedChars_le rest
    simp only [if_true, Bool.false_eq_true, if_false, List.length_append, List.length_nil,
      List.length_singleton] at lengths
    omega
  · intro started
    cases text with
    | nil => rfl
    | cons c rest =>
      have other : c.isDigit = false := by
        rw [← Bool.not_eq_true]
        exact fun digit => started ⟨c, rest, rfl, digit⟩
      rw [sanitizedChars_cons, sanitizedChars_cons, nextInArity_of_not_isDigit other]

theorem sanitize_append_iff {front back : String} :
    sanitize (front ++ back) = sanitize front ++ sanitize back ↔
      ¬ (EndsInMark front.toList ∧ StartsWithDigit back.toList) := by
  have parts : sanitize (front ++ back) = sanitize front ++ sanitize back ↔
      sanitizedChars (front.toList.foldl nextInArity false) back.toList =
        sanitizedChars false back.toList := by
    rw [← String.toList_inj]
    simp [sanitize, sanitizedChars_append]
  rw [parts, ← foldl_nextInArity_iff]
  cases front.toList.foldl nextInArity false with
  | false => simp
  | true => simp [sanitizedChars_true_eq_iff]

/-- Cleaning deletes every maximal mark, replaces what no identifier may hold in the rest, and deletes
nothing else. Clean names stay as they are, and names may be cleaned in parts unless a mark is cut. -/
theorem sanitize_deletes_marks_only (name other : String) :
    (sanitize name).toList =
      (unmarked name.toList).map (fun c => if Text.isAlphanumeric c = true ∨ c = '_' then c else '_') ∧
    sanitize (sanitize name) = sanitize name ∧
    (sanitize name = name ↔ ∀ c ∈ name.toList, Text.isAlphanumeric c = true ∨ c = '_') ∧
    (sanitize (name ++ other) = sanitize name ++ sanitize other ↔
      ¬ (EndsInMark name.toList ∧ StartsWithDigit other.toList)) := by
  have allowed (c : Char) : isIdentifierChar c = true ↔ Text.isAlphanumeric c = true ∨ c = '_' := by
    rw [isIdentifierChar, Bool.or_eq_true, decide_eq_true_eq]
  refine ⟨?_, sanitize_eq_self_iff.mpr (ofIdentifier_sanitize name), ?_, sanitize_append_iff⟩
  · rw [toList_sanitize]
    apply List.map_congr_left
    intro c _
    simp only [identifierChar, allowed]
  · simp only [sanitize_eq_self_iff, OfIdentifier, allowed]

end Scribe
