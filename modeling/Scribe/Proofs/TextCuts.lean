import Mathlib.Data.List.TakeWhile

/-! Text divided at a mark or where a run of characters ends. The first mark of a text and the last one
stand in one place each, so what is before and behind them can be told from the text alone. The digits of a
number are such a run. -/

namespace Scribe.Text

variable {first second rest others : List Char}

theorem span_of_stop {p : Char → Bool} {run text : List Char} (inside : ∀ c ∈ run, p c = true)
    (outside : ∀ c ∈ text.head?, p c = false) :
    (run ++ text).takeWhile p = run ∧ (run ++ text).dropWhile p = text := by
  rw [List.takeWhile_append_of_pos inside, List.dropWhile_append_of_pos inside]
  cases text with
  | nil => exact ⟨List.append_nil run, rfl⟩
  | cons c rest =>
    have stopped := outside c rfl
    rw [List.takeWhile_cons_of_neg (by simp [stopped]), List.dropWhile_cons_of_neg (by simp [stopped])]
    exact ⟨List.append_nil run, rfl⟩

theorem cut_at_mark {isMark : Char → Bool} (firstFree : ∀ c ∈ first, isMark c = false)
    (secondFree : ∀ c ∈ second, isMark c = false) (marked : ∀ c, rest.head? = some c → isMark c = true)
    (otherMarked : ∀ c, others.head? = some c → isMark c = true) (same : first ++ rest = second ++ others) :
    first = second ∧ rest = others := by
  have front {text tail : List Char} (free : ∀ c ∈ text, isMark c = false)
      (marked : ∀ c, tail.head? = some c → isMark c = true) :
      (text ++ tail).takeWhile (!isMark ·) = text :=
    (span_of_stop (by simpa using free) (by simpa using marked)).1
  have equal : first = second := by rw [← front firstFree marked, same, front secondFree otherMarked]
  subst equal
  exact ⟨rfl, List.append_cancel_left same⟩

theorem cut_at_first {separator : Char} (firstFree : separator ∉ first) (secondFree : separator ∉ second)
    (same : first ++ separator :: rest = second ++ separator :: others) :
    first = second ∧ rest = others := by
  have free {text : List Char} (absent : separator ∉ text) : ∀ c ∈ text, (c == separator) = false :=
    fun c member => beq_eq_false_iff_ne.mpr fun equal => absent (equal ▸ member)
  have marked (text : List Char) : ∀ c, (separator :: text).head? = some c → (c == separator) = true :=
    fun c head => beq_iff_eq.mpr (Option.some.inj head).symm
  obtain ⟨equal, tails⟩ := cut_at_mark (free firstFree) (free secondFree) (marked rest) (marked others) same
  exact ⟨equal, (List.cons.inj tails).2⟩

theorem cut_at_last {separator : Char} (restFree : separator ∉ rest) (othersFree : separator ∉ others)
    (same : first ++ separator :: rest = second ++ separator :: others) : rest = others := by
  have reversed := congrArg List.reverse same
  simp only [List.reverse_append, List.reverse_cons, List.append_assoc, List.singleton_append] at reversed
  have equal := (cut_at_first (by simpa using restFree) (by simpa using othersFree) reversed).1
  exact List.reverse_inj.mp equal

theorem ne_of_test {p : Char → Bool} {c : Char} (inside : p c = true) (mark : Char) (outside : p mark = false) :
    c ≠ mark := by
  intro same
  rw [← same, inside] at outside
  cases outside

/-- A number above zero does not start with a zero. -/
theorem toDigits_head (value : Nat) (positive : 0 < value) :
    ∃ c rest, Nat.toDigits 10 value = c :: rest ∧ c ≠ '0' := by
  by_cases small : value < 10
  · have digit : ∀ value < 10, 0 < value → Nat.digitChar value ≠ '0' := by decide
    exact ⟨_, [], Nat.toDigits_of_lt_base small, digit value small positive⟩
  · obtain ⟨c, rest, leading, nonzero⟩ := toDigits_head (value / 10) (by omega)
    refine ⟨c, rest ++ [Nat.digitChar (value % 10)], ?_, nonzero⟩
    rw [Nat.toDigits_of_base_le (by decide) (by omega), leading, List.cons_append]

end Scribe.Text
