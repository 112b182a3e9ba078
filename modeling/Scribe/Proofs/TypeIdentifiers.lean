import Scribe.Proofs.ArityMarks
import Scribe.Proofs.NameShapes
import Scribe.Symbol.Basic

/-! Identifiers of types. The names of a type and of its arguments stand one after the other, as the type is
written, each cleaned by itself. Nothing is left to clean in the result, so as a hint it is only cut and
trimmed. -/

namespace Scribe

namespace TypeSymbol

mutual

/-- The names of a type and of all its arguments, each before those of its own arguments. -/
def nestedNames : TypeSymbol → List String
  | ⟨name, _, arguments⟩ => name :: argumentNames arguments

def argumentNames : List TypeSymbol → List String
  | [] => []
  | type :: rest => nestedNames type ++ argumentNames rest

end

/-- Cleaned names, each behind an underscore. -/
def joined (names : List String) : List Char :=
  names.flatMap fun name => '_' :: (sanitize name).toList

mutual

theorem toList_identifier : (type : TypeSymbol) →
    type.identifier.toList = (sanitize type.name).toList ++ joined (argumentNames type.arguments)
  | ⟨name, container, arguments⟩ => by
    rw [identifier, String.toList_append, toList_argumentIdentifiers arguments]

theorem toList_argumentIdentifiers : (arguments : List TypeSymbol) →
    (argumentIdentifiers arguments).toList = joined (argumentNames arguments)
  | [] => rfl
  | ⟨name, container, arguments⟩ :: rest => by
    rw [argumentIdentifiers, String.toList_append, String.toList_append,
      toList_identifier ⟨name, container, arguments⟩, toList_argumentIdentifiers rest]
    simp [argumentNames, nestedNames, joined]

end

theorem identifier_eq_join (type : TypeSymbol) :
    type.identifier = Text.join "_" (type.nestedNames.map sanitize) := by
  obtain ⟨name, container, arguments⟩ := type
  rw [← String.toList_inj, toList_identifier, nestedNames, List.map_cons, Text.toList_join_cons,
    joined, List.flatMap_map]
  rfl

theorem ofIdentifier_identifier (type : TypeSymbol) : OfIdentifier type.identifier.toList := by
  intro c member
  rw [identifier_eq_join] at member
  rcases Text.mem_join member with between | ⟨text, cleaned, found⟩
  · rw [List.mem_singleton.mp between]
    rfl
  · obtain ⟨name, -, rfl⟩ := List.mem_map.mp cleaned
    exact ofIdentifier_sanitize name c found

end TypeSymbol

namespace NameSupply

variable {supply : NameSupply} {text other : String}

/-- The hint of a clean text is cut and trimmed, and nothing else happens to it. -/
theorem hint_of_ofIdentifier (supply : NameSupply) (held : OfIdentifier text.toList) :
    (supply.hint text).toList = Text.trim (· = '_') (text.toList.take supply.hintLimit) := by
  rw [toList_hint, sanitize_eq_self_iff.mpr held]

theorem hint_hint (supply : NameSupply) (text : String) : supply.hint (supply.hint text) = supply.hint text := by
  have short : (supply.hint text).toList.take supply.hintLimit = (supply.hint text).toList := by
    apply List.take_of_length_le
    rw [toList_hint]
    exact (Text.trim_infix _ _).length_le.trans (List.length_take_le _ _)
  rw [← String.toList_inj, hint_of_ofIdentifier supply (.hint supply text), short, toList_hint, Text.trim_trim]

theorem synthesize_congr (same : supply.hint text = supply.hint other) (kind : ElementKind) :
    synthesize text kind supply = synthesize other kind supply := by
  simp only [synthesize, same]

end NameSupply

namespace TypeSymbol

/-- The identifier of a type is made of the cleaned names of the type and of all its arguments in the order
of the text. It is clean itself: a supply that gets it as a hint cuts it to its limit, takes the underscores
off its ends and does nothing else. -/
theorem identifier_flattens_arguments (type : TypeSymbol) (supply : NameSupply) (kind : ElementKind) :
    type.identifier = Text.join "_" (type.nestedNames.map sanitize) ∧
    sanitize type.identifier = type.identifier ∧
    ∃ shown : String,
      (∃ front back, front ++ shown.toList ++ back = type.identifier.toList.take supply.hintLimit ∧
        (∀ c ∈ front, c = '_') ∧ ∀ c ∈ back, c = '_') ∧
      shown.toList.head? ≠ some '_' ∧ shown.toList.getLast? ≠ some '_' ∧
      NameSupply.synthesize type.identifier kind supply = NameSupply.synthesize shown kind supply ∧
      ∀ name after, NameSupply.synthesize type.identifier kind supply = .ok name after →
        name.name = supply.spelling shown kind (after.count kind).toNat := by
  have clean := sanitize_eq_self_iff.mpr (ofIdentifier_identifier type)
  have around := supply.exists_around_hint type.identifier
  rw [clean] at around
  refine ⟨identifier_eq_join type, clean, supply.hint type.identifier, around, supply.head?_hint _,
    supply.getLast?_hint _, NameSupply.synthesize_congr (supply.hint_hint _).symm kind, ?_⟩
  intro name after made
  obtain ⟨number, above, fits, rfl, -, rfl⟩ := NameSupply.synthesize_ok made
  rw [NameSupply.count_set supply kind fits]

end TypeSymbol

end Scribe
