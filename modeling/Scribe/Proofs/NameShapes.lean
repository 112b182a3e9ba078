import Scribe.Proofs.NameCharacters
import Scribe.Proofs.TextCuts

/-! What a name is made of. Behind the marker, the lead and the tag stands what is left of the hint, if
anything is, and then the number. A hint is cleaned first, then cut to its length and trimmed last, so
cutting may leave an underscore at the end but trimming never does. -/

namespace Scribe

theorem Text.trim_eq_nil_iff {unwanted : Char → Bool} {text : List Char} :
    trim unwanted text = [] ↔ ∀ c ∈ text, unwanted c = true := by
  rw [trim, dropTrailing, List.reverse_eq_nil_iff, List.dropWhile_eq_nil_iff]
  constructor
  · intro trailing
    cases rest : text.dropWhile unwanted with
    | nil => exact List.dropWhile_eq_nil_iff.mp rest
    | cons c others =>
      have kept : unwanted c = false := head?_dropWhile (by rw [rest, List.head?_cons])
      have dropped := trailing c (by simp [rest])
      rw [kept] at dropped
      cases dropped
  · intro all c member
    exact all c ((List.dropWhile_suffix unwanted).subset (List.mem_reverse.mp member))

/-- The number in decimal, without a leading zero. -/
structure IsDecimal (digits : String) (number : Nat) : Prop where
  digit : ∀ c ∈ digits.toList, c.isDigit = true
  value : Nat.ofDigitChars 10 digits.toList 0 = number
  leading : ∃ c rest, digits.toList = c :: rest ∧ c ≠ '0'

theorem isDecimal_toString {number : Nat} (positive : 0 < number) : IsDecimal (toString number) number := by
  have written : (toString number).toList = Nat.toDigits 10 number := by
    rw [Nat.toString_eq_repr, Nat.toList_repr]
  refine ⟨?_, ?_, ?_⟩
  · rw [written]
    exact fun c => Nat.isDigit_of_mem_toDigits (by decide) (by decide)
  · rw [written, Nat.ofDigitChars_ten_toDigits]
  · rw [written]
    exact Text.toDigits_head number positive

/-- A part of a cleaned text that is no longer than the limit and has no underscore at its ends. It is all
that the text has within the limit, apart from underscores around it. -/
structure IsPiece (limit : Nat) (text piece : String) : Prop where
  nonempty : piece ≠ ""
  contiguous : piece.toList <:+: (sanitize text).toList
  bounded : piece.length ≤ limit
  starts : piece.toList.head? ≠ some '_'
  ends : piece.toList.getLast? ≠ some '_'
  whole : ∃ front back, front ++ piece.toList ++ back = (sanitize text).toList.take limit ∧
    (∀ c ∈ front, c = '_') ∧ ∀ c ∈ back, c = '_'

namespace NameSupply

variable {supply : NameSupply} {text : String}

theorem toList_hint (supply : NameSupply) (text : String) :
    (supply.hint text).toList = Text.trim (· = '_') ((sanitize text).toList.take supply.hintLimit) := by
  rw [hint, sanitize, String.toList_ofList, String.toList_ofList]

theorem hint_eq_empty_iff :
    supply.hint text = "" ↔ ∀ c ∈ (sanitize text).toList.take supply.hintLimit, c = '_' := by
  rw [← String.toList_eq_nil_iff, toList_hint, Text.trim_eq_nil_iff]
  simp only [decide_eq_true_eq]

theorem head?_hint (supply : NameSupply) (text : String) : (supply.hint text).toList.head? ≠ some '_' := by
  intro head
  rw [toList_hint] at head
  exact absurd (Text.head?_trim head) (by decide)

theorem getLast?_hint (supply : NameSupply) (text : String) : (supply.hint text).toList.getLast? ≠ some '_' := by
  intro last
  rw [toList_hint] at last
  exact absurd (Text.getLast?_dropTrailing last) (by decide)

theorem exists_around_hint (supply : NameSupply) (text : String) :
    ∃ front back, front ++ (supply.hint text).toList ++ back = (sanitize text).toList.take supply.hintLimit ∧
      (∀ c ∈ front, c = '_') ∧ ∀ c ∈ back, c = '_' := by
  obtain ⟨front, back, same, before, behind⟩ :=
    Text.exists_around_trim (· = '_') ((sanitize text).toList.take supply.hintLimit)
  rw [← toList_hint] at same
  refine ⟨front, back, same, ?_, ?_⟩
  · exact fun c member => of_decide_eq_true (before c member)
  · exact fun c member => of_decide_eq_true (behind c member)

theorem isPiece_hint (nonempty : supply.hint text ≠ "") : IsPiece supply.hintLimit text (supply.hint text) := by
  obtain ⟨front, back, same, before, behind⟩ := exists_around_hint supply text
  have inside : (supply.hint text).toList <:+: (sanitize text).toList.take supply.hintLimit :=
    ⟨front, back, same⟩
  refine ⟨nonempty, inside.trans (List.take_prefix _ _).isInfix, ?_, head?_hint supply text,
    getLast?_hint supply text, front, back, same, before, behind⟩
  have bounded := inside.length_le
  rw [List.length_take] at bounded
  rw [← String.length_toList]
  omega

/-- The part of a name that shows the hint. -/
def shown? (supply : NameSupply) (text : String) : Option String :=
  if supply.hint text = "" then none else some (supply.hint text)

theorem shown?_eq_none_iff :
    supply.shown? text = none ↔ ∀ c ∈ (sanitize text).toList.take supply.hintLimit, c = '_' := by
  rw [← hint_eq_empty_iff]
  unfold shown?
  split
  next empty => simp [empty]
  next shown => simp [shown]

theorem isPiece_of_shown? {piece : String} (shown : supply.shown? text = some piece) :
    IsPiece supply.hintLimit text piece := by
  unfold shown? at shown
  split at shown
  next => cases shown
  next nonempty =>
    cases shown
    exact isPiece_hint nonempty

theorem spelling_hint (supply : NameSupply) (text : String) (kind : ElementKind) (number : Nat) :
    supply.spelling (supply.hint text) kind number =
      "__" ++ supply.lead ++ kind.tag ++ (supply.shown? text).elim "" ("_" ++ ·) ++ "_" ++
        toString number := by
  unfold spelling shown? marker
  split
  next => rw [Option.elim_none, String.append_empty]
  next => rw [Option.elim_some, ← String.append_assoc]

/-- A supply made from valid settings, whatever is reserved and counted by now, spells names of letters,
digits and underscores only. Between the tag and the number stands a piece of the cleaned hint, unless the
part of it that counts is nothing but underscores. -/
theorem synthesize_spells_identifier {settings : Settings} (valid : settings.invalid? = none)
    (reserved : List String) (counters : Counters) {text : String} {kind : ElementKind}
    {name : SyntheticName} {after : NameSupply}
    (made : synthesize text kind
      { ofSettings settings.naming with reserved := reserved, counters := counters } = .ok name after) :
    (∀ c ∈ name.name.toList, Text.isAlphanumeric c = true ∨ c = '_') ∧
    ∃ (piece? : Option String) (digits : String),
      name.name = "__" ++ settings.naming.lead ++ kind.tag ++ piece?.elim "" ("_" ++ ·) ++ "_" ++ digits ∧
      IsDecimal digits (after.count kind).toNat ∧ 1 ≤ (after.count kind).toNat ∧
      (∀ piece, piece? = some piece → IsPiece settings.naming.hintLimit.toNat text piece) ∧
      (piece? = none ↔
        ∀ c ∈ (sanitize text).toList.take settings.naming.hintLimit.toNat, c = '_') := by
  obtain ⟨limited, started, -⟩ := Settings.invalid?_eq_none_iff.mp valid
  generalize start : ({ ofSettings settings.naming with
    reserved := reserved, counters := counters } : NameSupply) = supply at made
  have lead : supply.lead = settings.naming.lead := by
    rw [← start, ofSettings]
  have limit : supply.hintLimit = settings.naming.hintLimit.toNat := by
    have positive : settings.naming.hintLimit.toNat ≠ 0 := fun zero => limited (UInt64.toNat_inj.mp zero)
    rw [← start, ofSettings, Nat.max_eq_left (by omega)]
  constructor
  · intro c member
    have held := OfIdentifier.synthesize (lead ▸ started) made c member
    rw [isIdentifierChar, Bool.or_eq_true, decide_eq_true_eq] at held
    exact held
  · obtain ⟨number, above, fits, rfl, -, rfl⟩ := synthesize_ok made
    have positive : 0 < number := Nat.zero_lt_of_lt above
    rw [count_set supply kind fits, ← limit, spelling_hint, lead]
    refine ⟨supply.shown? text, toString number, rfl, isDecimal_toString positive, positive, ?_, ?_⟩
    · exact fun piece => isPiece_of_shown?
    · exact shown?_eq_none_iff

def shortSettings : Settings where
  naming := { lead := "cc_", hintLimit := 8 }

/-- Seven methods have names already. -/
def busyCounters : Counters :=
  Counters.zero.set .method 7

/-- All that surrounds the word turns into underscores or vanishes, and what is not cut off is trimmed. -/
theorem synthesize_spells_word :
    shortSettings.invalid? = none ∧ ∃ name after,
      synthesize "+`12.Größe++x" .method
        { ofSettings shortSettings.naming with reserved := [], counters := busyCounters } = .ok name after ∧
      name.name = "__cc_m_Größe_8" ∧
      (∀ c ∈ name.name.toList, Text.isAlphanumeric c = true ∨ c = '_') := by
  have valid : shortSettings.invalid? = none := by decide
  have reached : ∃ name after,
      synthesize "+`12.Größe++x" .method
        { ofSettings shortSettings.naming with reserved := [], counters := busyCounters } = .ok name after ∧
      name.name = "__cc_m_Größe_8" :=
    ⟨_, _, rfl, by decide +kernel⟩
  obtain ⟨name, after, made, spelled⟩ := reached
  exact ⟨valid, name, after, made, spelled, (synthesize_spells_identifier valid [] busyCounters made).1⟩

end NameSupply

end Scribe
