import Scribe.Naming.Supply
import Scribe.Proofs.TextCuts

/-! A name gives away its kind and its number. Neither a tag nor a number holds an underscore, so the
tag ends at the first underscore behind the lead and the number starts behind the last one, whatever
the hint between them looks like. -/

namespace Scribe

namespace ElementKind

theorem find_tag (kind : ElementKind) : all.find? (fun other => other.tag = kind.tag) = some kind := by
  cases kind <;> decide

theorem tag_injective {left right : ElementKind} (same : left.tag = right.tag) : left = right := by
  have found := find_tag left
  rw [same, find_tag right] at found
  exact (Option.some.inj found).symm

theorem underscore_not_mem_tag (kind : ElementKind) : '_' ∉ kind.tag.toList := by
  cases kind <;> decide

theorem all_index (kind : ElementKind) : all[kind.index.val]? = some kind := by
  cases kind <;> rfl

theorem index_injective {left right : ElementKind} (same : left.index = right.index) :
    left = right := by
  have found := all_index left
  rw [same, all_index right] at found
  exact (Option.some.inj found).symm

end ElementKind

namespace NameSupply

theorem toDigits_injective {left right : Nat} (same : Nat.toDigits 10 left = Nat.toDigits 10 right) :
    left = right := by
  rw [← Nat.ofDigitChars_ten_toDigits (n := left), same, Nat.ofDigitChars_ten_toDigits]

theorem spelling_tag (supply : NameSupply) (hint : String) (kind : ElementKind) (number : Nat) :
    ∃ rest, (supply.spelling hint kind number).toList =
      marker.toList ++ supply.lead.toList ++ (kind.tag.toList ++ '_' :: rest) := by
  unfold spelling
  split
  · exact ⟨Nat.toDigits 10 number, by simp⟩
  · exact ⟨hint.toList ++ '_' :: Nat.toDigits 10 number, by simp⟩

theorem spelling_number (supply : NameSupply) (hint : String) (kind : ElementKind) (number : Nat) :
    ∃ front, (supply.spelling hint kind number).toList = front ++ '_' :: Nat.toDigits 10 number := by
  unfold spelling
  split
  · exact ⟨(marker ++ supply.lead ++ kind.tag).toList, by simp⟩
  · exact ⟨(marker ++ supply.lead ++ kind.tag ++ "_" ++ hint).toList, by simp⟩

/-- Supplies with the same lead spell a name in one way only, as far as kind and number go. -/
theorem spelling_determines {left right : NameSupply} {leftHint rightHint : String}
    {leftKind rightKind : ElementKind} {leftNumber rightNumber : Nat} (lead : left.lead = right.lead)
    (same : left.spelling leftHint leftKind leftNumber =
      right.spelling rightHint rightKind rightNumber) :
    leftKind = rightKind ∧ leftNumber = rightNumber := by
  constructor
  · obtain ⟨leftRest, leftTag⟩ := left.spelling_tag leftHint leftKind leftNumber
    obtain ⟨rightRest, rightTag⟩ := right.spelling_tag rightHint rightKind rightNumber
    rw [same, rightTag, lead] at leftTag
    have tags := (Text.cut_at_first (ElementKind.underscore_not_mem_tag _)
      (ElementKind.underscore_not_mem_tag _) (List.append_cancel_left leftTag)).1
    exact (ElementKind.tag_injective (String.toList_inj.mp tags)).symm
  · obtain ⟨leftFront, leftDigits⟩ := left.spelling_number leftHint leftKind leftNumber
    obtain ⟨rightFront, rightDigits⟩ := right.spelling_number rightHint rightKind rightNumber
    rw [same, rightDigits] at leftDigits
    have digits := Text.cut_at_last Nat.underscore_not_in_toDigits Nat.underscore_not_in_toDigits leftDigits
    exact (toDigits_injective digits).symm

end NameSupply

end Scribe
