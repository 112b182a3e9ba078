import Scribe.Proofs.JsonTokens

/-! Documents read back from text. Every text that spells the tokens of a tree is parsed to that tree, and
the indented text and the compact one are among them. -/

namespace Scribe

/-- Trees that are written in full: no part is garbled, and every number is a natural one. -/
inductive Data.IsPlain : Data → Prop
  | null : IsPlain .null
  | bool (value : Bool) : IsPlain (.bool value)
  | natural (value : Nat) : IsPlain (.natural value)
  | string (text : String) : IsPlain (.string text)
  | list {items : List Data} (plain : ∀ item ∈ items, IsPlain item) : IsPlain (.list items)
  | record {fields : List (String × Data)} (plain : ∀ field ∈ fields, IsPlain field.2) :
      IsPlain (.record fields)

namespace Json

variable {data : Data} {tokens : List Token}

theorem Token.IsMark.isPlain {token : Token} (isMark : token.IsMark) : token.IsPlain := by
  cases token with
  | number | garbled => exact isMark
  | _ => trivial

def MarkFirst (tokens : List Token) : Prop :=
  ∀ next ∈ tokens.head?, next.IsMark

theorem markFirst_cons {token : Token} (isMark : token.IsMark) : MarkFirst (token :: tokens) := by
  intro next head
  cases head
  exact isMark

/-- Plain tokens, of any two neighbours at least one being a mark. -/
def Regular : List Token → Prop
  | [] => True
  | token :: rest => token.IsPlain ∧ (token.IsMark ∨ MarkFirst rest) ∧ Regular rest

theorem Regular.mark {token : Token} (isMark : token.IsMark) (regular : Regular tokens) :
    Regular (token :: tokens) :=
  ⟨isMark.isPlain, .inl isMark, regular⟩

theorem Regular.tail {token : Token} (regular : Regular (token :: tokens)) : Regular tokens :=
  regular.2.2

theorem Spells.mark {text : List Char} (token : Token) (isMark : token.IsMark)
    (spells : Spells tokens text) : Spells (token :: tokens) (token.text ++ text) :=
  .token isMark.isPlain (.inl isMark) spells

theorem Spells.lineBreak {text : List Char} (level : Nat) (spells : Spells tokens text) :
    Spells tokens (lineBreak level ++ text) := by
  apply Spells.blank rfl
  induction 2 * level with
  | zero => exact spells
  | succ width ih =>
    rw [List.replicate_succ]
    exact Spells.blank rfl ih

theorem layout_stops (level : Nat) (marked : MarkFirst tokens) : Stops (layout level tokens) := by
  fun_cases layout level tokens with
  | case1 => exact nofun
  | case10 level token rest =>
    have isMark := marked token rfl
    cases token with
    | openList | closeList | openRecord | closeRecord | comma | colon => contradiction
    | _ => exact isMark.elim
  | _ =>
    intro c head
    cases head
    exact ⟨rfl, rfl⟩

theorem layout_spells (level : Nat) (regular : Regular tokens) : Spells tokens (layout level tokens) := by
  fun_induction layout level tokens with
  | case1 level => exact .done
  | case2 level rest ih => exact .mark .openList trivial (.mark .closeList trivial (ih regular.tail.tail))
  | case3 level rest ih =>
    exact .mark .openRecord trivial (.mark .closeRecord trivial (ih regular.tail.tail))
  | case4 level rest _ ih => exact .mark .openList trivial (.lineBreak _ (ih regular.tail))
  | case5 level rest _ ih => exact .mark .openRecord trivial (.lineBreak _ (ih regular.tail))
  | case6 level rest ih => exact .lineBreak _ (.mark .closeList trivial (ih regular.tail))
  | case7 level rest ih => exact .lineBreak _ (.mark .closeRecord trivial (ih regular.tail))
  | case8 level rest ih => exact .mark .comma trivial (.lineBreak _ (ih regular.tail))
  | case9 level rest ih => exact .mark .colon trivial (.blank rfl (ih regular.tail))
  | case10 level token rest _ _ _ _ _ _ _ _ ih =>
    obtain ⟨plain, apart, regular⟩ := regular
    exact .token plain (apart.imp_right (layout_stops level)) (ih regular)

theorem text_stops {token : Token} (isMark : token.IsMark) (rest : List Char) : Stops (token.text ++ rest) := by
  intro c head
  cases token with
  | openList | closeList | openRecord | closeRecord | comma | colon =>
    cases head
    exact ⟨rfl, rfl⟩
  | _ => exact isMark.elim

theorem texts_spell (regular : Regular tokens) : Spells tokens (tokens.flatMap Token.text) := by
  induction tokens with
  | nil => exact .done
  | cons token rest ih =>
    obtain ⟨plain, apart, regular⟩ := regular
    rw [List.flatMap_cons]
    refine .token plain (apart.imp_right ?_) (ih regular)
    intro marked
    cases rest with
    | nil => exact nofun
    | cons next rest => exact text_stops (marked next rfl) _

section Values

variable {rest : List Token}

theorem regular_itemTokens {items : List Data}
    (each : ∀ item ∈ items, ∀ {rest}, MarkFirst rest → Regular rest → Regular (tokensOf item ++ rest))
    (marked : MarkFirst rest) (regular : Regular rest) : Regular (itemTokens items ++ rest) := by
  induction items with
  | nil =>
    rw [itemTokens]
    exact regular
  | cons item items ih =>
    obtain ⟨first, others⟩ := List.forall_mem_cons.mp each
    cases items with
    | nil =>
      rw [itemTokens]
      exact first marked regular
    | cons next items =>
      rw [itemTokens, List.append_assoc, List.cons_append]
      exact first (markFirst_cons trivial) (.mark trivial (ih others))

theorem regular_fieldTokens {fields : List (String × Data)}
    (each : ∀ field ∈ fields, ∀ {rest}, MarkFirst rest → Regular rest →
      Regular (tokensOf field.2 ++ rest))
    (marked : MarkFirst rest) (regular : Regular rest) : Regular (fieldTokens fields ++ rest) := by
  induction fields with
  | nil =>
    rw [fieldTokens]
    exact regular
  | cons field fields ih =>
    obtain ⟨name, value⟩ := field
    obtain ⟨first, others⟩ := List.forall_mem_cons.mp each
    cases fields with
    | nil =>
      rw [fieldTokens]
      exact ⟨trivial, .inr (markFirst_cons trivial), .mark trivial (first marked regular)⟩
    | cons next fields =>
      rw [fieldTokens, List.cons_append, List.cons_append, List.append_assoc, List.cons_append]
      refine ⟨trivial, .inr (markFirst_cons trivial), .mark trivial ?_⟩
      exact first (markFirst_cons trivial) (.mark trivial (ih others))

/-- A value may stand before any mark. -/
theorem regular_tokensOf (plain : data.IsPlain) (marked : MarkFirst rest) (regular : Regular rest) :
    Regular (tokensOf data ++ rest) := by
  induction plain generalizing rest with
  | null | bool | natural | string =>
    rw [tokensOf]
    exact ⟨trivial, .inr marked, regular⟩
  | list _ ih =>
    rw [tokensOf, List.cons_append, List.append_assoc]
    exact .mark trivial (regular_itemTokens ih (markFirst_cons trivial) (.mark trivial regular))
  | record _ ih =>
    rw [tokensOf, List.cons_append, List.append_assoc]
    exact .mark trivial (regular_fieldTokens ih (markFirst_cons trivial) (.mark trivial regular))

/-- Reading the tokens of a tree gives the tree and leaves what follows. -/
def ReadsBack (data : Data) : Prop :=
  ∀ rounds rest, 2 * (tokensOf data).length ≤ rounds →
    value? rounds (tokensOf data ++ rest) = some (data, rest)

theorem items?_itemTokens {items : List Data} (nonempty : items ≠ [])
    (each : ∀ item ∈ items, ReadsBack item) (rounds : Nat) (rest : List Token)
    (enough : 2 * (itemTokens items).length + 1 ≤ rounds) :
    items? rounds (itemTokens items ++ .closeList :: rest) = some (items, rest) := by
  induction items generalizing rounds with
  | nil => exact absurd rfl nonempty
  | cons item items ih =>
    obtain ⟨first, others⟩ := List.forall_mem_cons.mp each
    obtain ⟨rounds, rfl⟩ := Nat.exists_eq_add_of_le' (Nat.one_le_of_lt enough)
    cases items with
    | nil =>
      rw [itemTokens] at enough ⊢
      rw [items?, first rounds _ (by omega)]
    | cons next items =>
      rw [itemTokens, List.length_append, List.length_cons] at enough
      rw [itemTokens, List.append_assoc, List.cons_append, items?, first rounds _ (by omega)]
      simp only [ih (List.cons_ne_nil next items) others rounds (by omega), Option.map_some]

/-- The fields of a record as they are read: each name might have been garbled. -/
def named (fields : List (String × Data)) : List (Option String × Data) :=
  fields.map fun (name, value) => (some name, value)

theorem recordOf_named (fields : List (String × Data)) : recordOf (named fields) = .record fields := by
  have intact (read : Option String × Data → Option (String × Data))
      (reads : ∀ name value, read (some name, value) = some (name, value)) :
      (named fields).mapM read = some fields := by
    induction fields with
    | nil => rfl
    | cons field fields ih =>
      rw [named] at ih
      rw [named, List.map_cons, List.mapM_cons, reads, ih]
      rfl
  rw [recordOf, intact _ fun _ _ => rfl]

theorem fields?_fieldTokens {fields : List (String × Data)} (nonempty : fields ≠ [])
    (each : ∀ field ∈ fields, ReadsBack field.2) (rounds : Nat) (rest : List Token)
    (enough : 2 * (fieldTokens fields).length + 1 ≤ rounds) :
    fields? rounds (fieldTokens fields ++ .closeRecord :: rest) = some (named fields, rest) := by
  induction fields generalizing rounds with
  | nil => exact absurd rfl nonempty
  | cons field fields ih =>
    obtain ⟨name, value⟩ := field
    have first : ReadsBack value := each _ List.mem_cons_self
    obtain ⟨rounds, rfl⟩ := Nat.exists_eq_add_of_le' (Nat.one_le_of_lt enough)
    cases fields with
    | nil =>
      rw [fieldTokens, List.length_cons, List.length_cons] at enough
      rw [fieldTokens, List.cons_append, List.cons_append, fields?]
      simp only [fieldName?, first rounds _ (by omega)]
      rfl
    | cons next fields =>
      have others := fun other member => each other (List.mem_cons_of_mem _ member)
      rw [fieldTokens, List.length_cons, List.length_cons, List.length_append, List.length_cons] at enough
      rw [fieldTokens, List.cons_append, List.cons_append, List.append_assoc, List.cons_append, fields?]
      simp only [fieldName?, first rounds _ (by omega),
        ih (List.cons_ne_nil next fields) others rounds (by omega), Option.map_some]
      rfl

theorem tokensOf_head (data : Data) :
    ∃ token rest, tokensOf data = token :: rest ∧ token ≠ .closeList := by
  cases data with
  | _ =>
    rw [tokensOf]
    exact ⟨_, _, rfl, nofun⟩

theorem itemTokens_head (item : Data) (items : List Data) :
    ∃ token rest, itemTokens (item :: items) = token :: rest ∧ token ≠ .closeList := by
  obtain ⟨token, rest, started, opens⟩ := tokensOf_head item
  cases items with
  | nil => exact ⟨token, rest, by rw [itemTokens, started], opens⟩
  | cons => exact ⟨token, _, by rw [itemTokens, started, List.cons_append], opens⟩

theorem fieldTokens_head (field : String × Data) (fields : List (String × Data)) :
    ∃ name rest, fieldTokens (field :: fields) = .string name :: rest := by
  cases fields with
  | nil => exact ⟨_, _, by rw [fieldTokens]⟩
  | cons => exact ⟨_, _, by rw [fieldTokens]⟩

theorem value?_openList {token : Token} (opens : token ≠ .closeList) (rounds : Nat) :
    value? (rounds + 1) (.openList :: token :: rest) =
      (items? rounds (token :: rest)).map fun (items, rest) => (.list items, rest) := by
  cases token with
  | closeList => exact absurd rfl opens
  | _ => rfl

theorem readsBack (plain : data.IsPlain) : ReadsBack data := by
  induction plain with
  | null | bool | natural | string =>
    intro rounds rest enough
    obtain ⟨rounds, rfl⟩ := Nat.exists_eq_add_of_le' (Nat.one_le_of_lt enough)
    rw [tokensOf]
    rfl
  | @list items _ ih =>
    intro rounds rest enough
    obtain ⟨rounds, rfl⟩ := Nat.exists_eq_add_of_le' (Nat.one_le_of_lt enough)
    rw [tokensOf, List.length_cons, List.length_append] at enough
    rw [tokensOf, List.cons_append, List.append_assoc, List.singleton_append]
    cases items with
    | nil =>
      rw [itemTokens]
      rfl
    | cons item items =>
      obtain ⟨token, after, started, opens⟩ := itemTokens_head item items
      have read := items?_itemTokens (List.cons_ne_nil item items) ih rounds rest (by omega)
      rw [started, List.cons_append] at read ⊢
      rw [value?_openList opens, read]
      rfl
  | @record fields _ ih =>
    intro rounds rest enough
    obtain ⟨rounds, rfl⟩ := Nat.exists_eq_add_of_le' (Nat.one_le_of_lt enough)
    rw [tokensOf, List.length_cons, List.length_append] at enough
    rw [tokensOf, List.cons_append, List.append_assoc, List.singleton_append]
    cases fields with
    | nil =>
      rw [fieldTokens]
      rfl
    | cons field fields =>
      obtain ⟨name, after, started⟩ := fieldTokens_head field fields
      have read := fields?_fieldTokens (List.cons_ne_nil field fields) ih rounds rest (by omega)
      rw [started, List.cons_append] at read ⊢
      rw [value?, read]
      · exact congrArg (fun data => some (data, rest)) (recordOf_named _)
      · exact nofun

/-- Any spelling of the tokens of a tree is read as the tree. -/
theorem parse?_of_spells (plain : data.IsPlain) {text : String}
    (spells : Spells (tokensOf data) text.toList) : parse? text = some data := by
  have read := readsBack plain (2 * (tokensOf data).length + 1) [] (Nat.le_succ _)
  rw [List.append_nil] at read
  simp [parse?, spells.tokens?, read]

theorem regular_tokens (plain : data.IsPlain) : Regular (tokensOf data) := by
  have regular : Regular (tokensOf data ++ []) := regular_tokensOf plain nofun trivial
  rwa [List.append_nil] at regular

theorem pretty_spells (plain : data.IsPlain) : Spells (tokensOf data) (pretty data).toList := by
  rw [pretty, String.toList_ofList]
  exact layout_spells 0 (regular_tokens plain)

theorem compact_spells (plain : data.IsPlain) : Spells (tokensOf data) (compact data).toList := by
  rw [compact, String.toList_ofList]
  exact texts_spell (regular_tokens plain)

end Values

end Json

end Scribe
