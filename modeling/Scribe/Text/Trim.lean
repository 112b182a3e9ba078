/-!
Cutting unwanted characters off the ends of a text.
-/

namespace Scribe.Text

variable {α : Type}

def dropTrailing (unwanted : α → Bool) (items : List α) : List α :=
  (items.reverse.dropWhile unwanted).reverse

def trim (unwanted : α → Bool) (items : List α) : List α :=
  dropTrailing unwanted (items.dropWhile unwanted)

section

variable {unwanted : α → Bool} {items : List α} {item : α}

theorem head?_dropWhile (head : (items.dropWhile unwanted).head? = some item) : unwanted item = false := by
  have kept := List.head?_dropWhile_not unwanted items
  rw [head] at kept
  simpa using kept

theorem getLast?_dropTrailing (last : (dropTrailing unwanted items).getLast? = some item) :
    unwanted item = false := by
  rw [dropTrailing, List.getLast?_reverse] at last
  exact head?_dropWhile last

theorem dropTrailing_append (unwanted : α → Bool) (items : List α) :
    dropTrailing unwanted items ++ (items.reverse.takeWhile unwanted).reverse = items := by
  rw [dropTrailing, ← List.reverse_append, List.takeWhile_append_dropWhile, List.reverse_reverse]

/-- Nothing but what is unwanted is cut off. -/
theorem exists_around_trim (unwanted : α → Bool) (items : List α) :
    ∃ front back, front ++ trim unwanted items ++ back = items ∧
      (∀ item ∈ front, unwanted item = true) ∧ ∀ item ∈ back, unwanted item = true := by
  refine ⟨items.takeWhile unwanted, ((items.dropWhile unwanted).reverse.takeWhile unwanted).reverse, ?_, ?_, ?_⟩
  · rw [List.append_assoc, trim, dropTrailing_append, List.takeWhile_append_dropWhile]
  · exact List.all_eq_true.mp List.all_takeWhile
  · intro item member
    exact List.all_eq_true.mp List.all_takeWhile item (List.mem_reverse.mp member)

theorem trim_infix (unwanted : α → Bool) (items : List α) : trim unwanted items <:+: items := by
  obtain ⟨front, back, same, -⟩ := exists_around_trim unwanted items
  exact ⟨front, back, same⟩

theorem head?_trim (head : (trim unwanted items).head? = some item) : unwanted item = false := by
  have first : (items.dropWhile unwanted).head? = some item := by
    rw [← dropTrailing_append unwanted (items.dropWhile unwanted), List.head?_append, ← trim, head,
      Option.some_or]
  exact head?_dropWhile first

theorem dropWhile_of_head? (wanted : ∀ item, items.head? = some item → unwanted item = false) :
    items.dropWhile unwanted = items := by
  cases items with
  | nil => rfl
  | cons first rest => exact List.dropWhile_cons_of_neg (by simp [wanted first rfl])

theorem trim_of_ends (start : ∀ item, items.head? = some item → unwanted item = false)
    (last : ∀ item, items.getLast? = some item → unwanted item = false) : trim unwanted items = items := by
  have reversed : items.reverse.dropWhile unwanted = items.reverse := by
    apply dropWhile_of_head?
    intro item head
    rw [List.head?_reverse] at head
    exact last item head
  rw [trim, dropTrailing, dropWhile_of_head? start, reversed, List.reverse_reverse]

theorem trim_trim (unwanted : α → Bool) (items : List α) :
    trim unwanted (trim unwanted items) = trim unwanted items := by
  apply trim_of_ends
  · exact fun item => head?_trim
  · exact fun item => getLast?_dropTrailing

end

end Scribe.Text
