/-!
Texts in a row with a separator between neighbours.
-/

namespace Scribe.Text

def join (separator : String) : List String → String
  | [] => ""
  | [text] => text
  | text :: next :: rest => text ++ separator ++ join separator (next :: rest)

theorem mem_join {separator : String} {texts : List String} {c : Char}
    (member : c ∈ (join separator texts).toList) :
    c ∈ separator.toList ∨ ∃ text ∈ texts, c ∈ text.toList := by
  induction texts with
  | nil => cases member
  | cons first rest ih =>
    cases rest with
    | nil => exact Or.inr ⟨first, List.mem_cons_self, member⟩
    | cons second others =>
      rw [join, String.toList_append, String.toList_append] at member
      rcases List.mem_append.mp member with before | later
      · rcases List.mem_append.mp before with inside | between
        · exact Or.inr ⟨first, List.mem_cons_self, inside⟩
        · exact Or.inl between
      · rcases ih later with between | ⟨text, held, found⟩
        · exact Or.inl between
        · exact Or.inr ⟨text, List.mem_cons_of_mem _ held, found⟩

theorem toList_join_cons (separator first : String) (rest : List String) :
    (join separator (first :: rest)).toList =
      first.toList ++ rest.flatMap fun text => separator.toList ++ text.toList := by
  induction rest generalizing first with
  | nil => simp [join]
  | cons next rest ih =>
    rw [join, String.toList_append, String.toList_append, ih, List.flatMap_cons]
    simp only [List.append_assoc]

end Scribe.Text
