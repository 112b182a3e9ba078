import Scribe.Proofs.NameRuns

/-! The characters of names. Whatever a hint looks like, a name holds nothing but what an identifier may
hold, provided that the lead of the supply does. -/

namespace Scribe

theorem isAlphanumeric_of_isAlphanum {c : Char} (ascii : c.isAlphanum = true) :
    Text.isAlphanumeric c = true := by
  have small : c.toNat < 0x80 := by
    rcases Bool.or_eq_true_iff.mp ascii with letter | digit
    · rcases Bool.or_eq_true_iff.mp letter with upper | lower
      · have bound : c.toNat ≤ 90 := UInt32.le_iff_toNat_le.mp (of_decide_eq_true upper).2
        omega
      · have bound : c.toNat ≤ 122 :=
          UInt32.le_iff_toNat_le.mp (of_decide_eq_true (Bool.and_eq_true_iff.mp lower).2)
        omega
    · have bound : c.toNat ≤ 57 := (Char.isDigit_iff_toNat.mp digit).2
      omega
  rw [Text.isAlphanumeric, if_pos small, ascii]

theorem isIdentifierChar_identifierChar (c : Char) : isIdentifierChar (identifierChar c) = true := by
  unfold identifierChar
  split
  next held => exact held
  next => rfl

theorem Settings.startsIdentifier_lead {settings : Settings} (valid : settings.invalid? = none) :
    startsIdentifier settings.naming.lead = true :=
  (invalid?_eq_none_iff.mp valid).2.1

/-- Every character is one that an identifier may hold. -/
def OfIdentifier (text : List Char) : Prop :=
  ∀ c ∈ text, isIdentifierChar c = true

namespace OfIdentifier

variable {text : List Char}

theorem append {left right : List Char} (first : OfIdentifier left) (second : OfIdentifier right) :
    OfIdentifier (left ++ right) :=
  List.forall_mem_append.mpr ⟨first, second⟩

theorem not_mem (held : OfIdentifier text) {c : Char} (foreign : isIdentifierChar c = false) : c ∉ text :=
  fun member => Bool.false_ne_true (foreign.symm.trans (held c member))

theorem sanitizedChars (inArity : Bool) (text : List Char) : OfIdentifier (sanitizedChars inArity text) := by
  induction text generalizing inArity with
  | nil => simp [OfIdentifier, Scribe.sanitizedChars]
  | cons first rest ih =>
    rw [Scribe.sanitizedChars]
    split
    · exact ih true
    · split
      · exact ih true
      · exact List.forall_mem_cons.mpr ⟨isIdentifierChar_identifierChar first, ih false⟩

theorem trim (held : OfIdentifier text) (unwanted : Char → Bool) : OfIdentifier (Text.trim unwanted text) :=
  fun c member => held c ((Text.trim_infix unwanted text).subset member)

theorem lead {text : String} (valid : startsIdentifier text = true) : OfIdentifier text.toList := by
  intro c member
  have plain := List.all_eq_true.mp (Bool.and_eq_true_iff.mp valid).1 c member
  rcases Bool.or_eq_true_iff.mp plain with ascii | underscore
  · exact Bool.or_eq_true_iff.mpr (Or.inl (isAlphanumeric_of_isAlphanum ascii))
  · exact Bool.or_eq_true_iff.mpr (Or.inr underscore)

theorem tag (kind : ElementKind) : OfIdentifier kind.tag.toList := by
  apply List.all_eq_true.mp
  cases kind <;> decide

theorem toDigits (number : Nat) : OfIdentifier (Nat.toDigits 10 number) := by
  intro c member
  have digit := Nat.isDigit_of_mem_toDigits (by decide) (by decide) member
  apply Bool.or_eq_true_iff.mpr
  exact Or.inl (isAlphanumeric_of_isAlphanum (Bool.or_eq_true_iff.mpr (Or.inr digit)))

theorem hint (supply : NameSupply) (text : String) : OfIdentifier (supply.hint text).toList := by
  rw [NameSupply.hint, String.toList_ofList]
  apply trim
  intro c member
  exact sanitizedChars false text.toList c (List.mem_of_mem_take member)

theorem spelling {supply : NameSupply} {hint : String} (valid : startsIdentifier supply.lead = true)
    (held : OfIdentifier hint.toList) (kind : ElementKind) (number : Nat) :
    OfIdentifier (supply.spelling hint kind number).toList := by
  have underscore : OfIdentifier ['_'] := List.forall_mem_singleton.mpr rfl
  have marker : OfIdentifier NameSupply.marker.toList := List.all_eq_true.mp (by decide)
  have stem := (marker.append (lead valid)).append (tag kind)
  unfold NameSupply.spelling
  split
  · simpa using (stem.append underscore).append (toDigits number)
  · simpa using (((stem.append underscore).append held).append underscore).append (toDigits number)

theorem synthesize {text : String} {kind : ElementKind} {supply after : NameSupply} {name : SyntheticName}
    (valid : startsIdentifier supply.lead = true)
    (made : NameSupply.synthesize text kind supply = .ok name after) : OfIdentifier name.name.toList := by
  obtain ⟨number, -, -, rfl, -⟩ := NameSupply.synthesize_ok made
  exact spelling valid (hint supply text) kind number

end OfIdentifier

end Scribe
