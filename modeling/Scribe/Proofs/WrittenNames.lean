import Scribe.Proofs.QualifiedLookup

/-! Names as they are written, with blanks, type arguments and the mark of the global scope. The brackets
around type arguments are balanced, so behind each list of them the depth is what it was before it. Of the
whole text only the identifiers are left, with the dots between them. -/

namespace Scribe

namespace Path

def IsBlank (text : List Char) : Prop :=
  ∀ c ∈ text, Text.isWhitespace c = true

instance (text : List Char) : Decidable (IsBlank text) :=
  List.decidableBAll _ _

/-- Every angle bracket of the text has its counterpart in it. -/
inductive Balanced : List Char → Prop where
  | nil : Balanced []
  | other {c : Char} {rest : List Char} (notOpening : c ≠ '<') (notClosing : c ≠ '>')
      (balanced : Balanced rest) : Balanced (c :: rest)
  | nested {inner rest : List Char} (inside : Balanced inner) (behind : Balanced rest) :
      Balanced ('<' :: inner ++ '>' :: rest)

/-- An identifier, as far as its characters go: it may also be empty. -/
def IsUndivided (identifier : String) : Prop :=
  ∀ c ∈ identifier.toList, IsBare c ∧ c ≠ '.'

instance (identifier : String) : Decidable (IsUndivided identifier) :=
  List.decidableBAll _ _

/-- An identifier with or without type arguments, and blanks around all of its parts. -/
inductive Segment (identifier : String) : List Char → Prop where
  | bare {before behind : List Char} (undivided : IsUndivided identifier) (lead : IsBlank before)
      (trail : IsBlank behind) : Segment identifier (before ++ identifier.toList ++ behind)
  | generic {before between arguments behind : List Char} (undivided : IsUndivided identifier)
      (lead : IsBlank before) (gap : IsBlank between) (balanced : Balanced arguments)
      (trail : IsBlank behind) :
      Segment identifier (before ++ identifier.toList ++ between ++ ('<' :: arguments ++ ['>']) ++ behind)

/-- Segments with a dot between neighbours. -/
inductive Dotted : (identifiers : List String) → List Char → Prop where
  | last {identifier : String} {text : List Char} (segment : Segment identifier text) :
      Dotted [identifier] text
  | more {identifier : String} {identifiers : List String} {text rest : List Char}
      (segment : Segment identifier text) (dotted : Dotted identifiers rest) :
      Dotted (identifier :: identifiers) (text ++ '.' :: rest)

/-- A written name with these identifiers, with or without the mark of the global scope. -/
inductive Spelled (identifiers : List String) : List Char → Prop where
  | relative {text : List Char} (dotted : Dotted identifiers text) : Spelled identifiers text
  | global {before text : List Char} (lead : IsBlank before) (dotted : Dotted identifiers text) :
      Spelled identifiers (before ++ "global::".toList ++ text)

def IsLevel (text : List Char) : Prop :=
  ∀ c ∈ text, c ≠ '<' ∧ c ≠ '>'

instance (text : List Char) : Decidable (IsLevel text) :=
  List.decidableBAll _ _

theorem Balanced.level_append {front rest : List Char} (level : IsLevel front) (balanced : Balanced rest) :
    Balanced (front ++ rest) := by
  induction front with
  | nil => exact balanced
  | cons c front ih =>
    obtain ⟨notOpening, notClosing⟩ := level c List.mem_cons_self
    exact .other notOpening notClosing (ih fun other member => level other (List.mem_cons_of_mem _ member))

theorem Balanced.level {text : List Char} (level : IsLevel text) : Balanced text := by
  simpa using level_append level .nil

theorem dropArguments_balanced {inner : List Char} (balanced : Balanced inner) (depth : Nat)
    (rest : List Char) : dropArguments (depth + 1) (inner ++ rest) = dropArguments (depth + 1) rest := by
  -- Inside brackets nothing is kept, and each bracket that opens is closed before the text ends.
  induction balanced generalizing depth rest with
  | nil => rfl
  | other notOpening notClosing _ ih =>
    rw [List.cons_append, dropArguments, if_neg notOpening, if_neg notClosing, if_neg (by simp), ih]
  | nested _ _ insideIh behindIh =>
    rw [List.append_assoc, List.cons_append, List.cons_append, dropArguments, if_pos rfl, insideIh,
      dropArguments, if_neg (by decide), if_pos rfl, Nat.add_sub_cancel, behindIh]

theorem dropArguments_blank {blank : List Char} (isBlank : IsBlank blank) (depth : Nat)
    (rest : List Char) : dropArguments depth (blank ++ rest) = dropArguments depth rest := by
  induction blank with
  | nil => rfl
  | cons c blank ih =>
    have space := isBlank c List.mem_cons_self
    have notOpening : c ≠ '<' := by
      intro same
      rw [same] at space
      exact absurd space (by decide)
    have notClosing : c ≠ '>' := by
      intro same
      rw [same] at space
      exact absurd space (by decide)
    rw [List.cons_append, dropArguments, if_neg notOpening, if_neg notClosing, if_neg (by simp [space]),
      ih fun other member => isBlank other (List.mem_cons_of_mem _ member)]

theorem dropArguments_append_blank (depth : Nat) (text : List Char) {blank : List Char}
    (isBlank : IsBlank blank) : dropArguments depth (text ++ blank) = dropArguments depth text := by
  induction text generalizing depth with
  | nil =>
    have dropped := dropArguments_blank isBlank depth []
    rwa [List.append_nil] at dropped
  | cons c text ih => simp only [List.cons_append, dropArguments, ih]

theorem dropArguments_dropTrailing (depth : Nat) (text : List Char) :
    dropArguments depth (Text.dropTrailing Text.isWhitespace text) = dropArguments depth text := by
  have blank : IsBlank (text.reverse.takeWhile Text.isWhitespace).reverse := by
    intro c member
    exact List.all_eq_true.mp List.all_takeWhile c (List.mem_reverse.mp member)
  rw [← dropArguments_append_blank depth _ blank, Text.dropTrailing_append]

theorem dropArguments_trim (text : List Char) :
    dropArguments 0 (Text.trim Text.isWhitespace text) = dropArguments 0 text := by
  have blank : IsBlank (text.takeWhile Text.isWhitespace) := List.all_eq_true.mp List.all_takeWhile
  rw [Text.trim, dropArguments_dropTrailing, ← dropArguments_blank blank, List.takeWhile_append_dropWhile]

/-- Read from outside all brackets, the text ends outside of them, and this much of it is kept. -/
def Leaves (text kept : List Char) : Prop :=
  ∀ rest, dropArguments 0 (text ++ rest) = kept ++ dropArguments 0 rest

namespace Leaves

variable {text other kept otherKept : List Char}

theorem append (first : Leaves text kept) (second : Leaves other otherKept) :
    Leaves (text ++ other) (kept ++ otherKept) := by
  intro rest
  rw [List.append_assoc, first, second, List.append_assoc]

theorem blank (isBlank : IsBlank text) : Leaves text [] :=
  dropArguments_blank isBlank 0

theorem arguments (balanced : Balanced text) : Leaves ('<' :: text ++ ['>']) [] := by
  intro rest
  rw [List.append_assoc, List.cons_append, dropArguments, if_pos rfl, dropArguments_balanced balanced,
    List.cons_append, dropArguments, if_neg (by decide), if_pos rfl]
  rfl

theorem undivided {identifier : String} (undivided : IsUndivided identifier) :
    Leaves identifier.toList identifier.toList :=
  dropArguments_solid fun c member => (undivided c member).1.solid

theorem segment {identifier : String} (segment : Segment identifier text) :
    Leaves text identifier.toList := by
  cases segment with
  | bare isUndivided lead trail =>
    simpa using ((blank lead).append (undivided isUndivided)).append (blank trail)
  | generic isUndivided lead gap balanced trail =>
    simpa using ((((blank lead).append (undivided isUndivided)).append (blank gap)).append
      (arguments balanced)).append (blank trail)

theorem dotted {identifiers : List String} (dotted : Dotted identifiers text) :
    Leaves text (Text.join "." identifiers).toList := by
  induction dotted with
  | last isSegment => exact segment isSegment
  | @more identifier identifiers text rest isSegment isDotted ih =>
    have dot : Leaves ['.'] ['.'] := dropArguments_solid (List.forall_mem_singleton.mpr (by decide))
    obtain ⟨next, others, rfl⟩ : ∃ next others, identifiers = next :: others := by
      cases isDotted with
      | last => exact ⟨_, _, rfl⟩
      | more => exact ⟨_, _, rfl⟩
    simpa [join_cons_cons] using (segment isSegment).append (dot.append ih)

theorem dropArguments_eq (leaves : Leaves text kept) : dropArguments 0 text = kept := by
  have whole := leaves []
  rwa [List.append_nil, dropArguments, List.append_nil] at whole

end Leaves

theorem Segment.undivided {identifier : String} {text : List Char} (segment : Segment identifier text) :
    IsUndivided identifier := by
  cases segment with
  | bare undivided => exact undivided
  | generic undivided => exact undivided

theorem Dotted.bare {identifiers : List String} {text : List Char} (dotted : Dotted identifiers text) :
    ∀ c ∈ (Text.join "." identifiers).toList, IsBare c := by
  apply bare_join
  induction dotted with
  | last segment => exact List.forall_mem_singleton.mpr fun c found => (segment.undivided c found).1
  | more segment _ ih => exact List.forall_mem_cons.mpr ⟨fun c found => (segment.undivided c found).1, ih⟩

theorem Spelled.bare {identifiers : List String} {text : List Char} (spelled : Spelled identifiers text) :
    ∀ c ∈ (Text.join "." identifiers).toList, IsBare c := by
  cases spelled with
  | relative dotted => exact dotted.bare
  | global _ dotted => exact dotted.bare

theorem solid_globalMark :
    ∀ c ∈ "global::".toList, Text.isWhitespace c = false ∧ c ≠ '<' ∧ c ≠ '>' := by
  have all : "global::".toList.Forall fun c => Text.isWhitespace c = false ∧ c ≠ '<' ∧ c ≠ '>' := by decide
  exact List.forall_iff_forall_mem.mp all

theorem trim_of_globalMark {before : List Char} (blank : IsBlank before) (text : List Char) :
    Text.trim Text.isWhitespace (before ++ "global::".toList ++ text) =
      "global::".toList ++ Text.dropTrailing Text.isWhitespace text := by
  have started : (before ++ "global::".toList ++ text).dropWhile Text.isWhitespace =
      "global::".toList ++ text := by
    rw [List.append_assoc, List.dropWhile_append_of_pos blank]
    rfl
  rw [Text.trim, started, Text.dropTrailing, List.reverse_append, List.dropWhile_append]
  split
  next all =>
    rw [Text.dropTrailing, List.isEmpty_iff.mp all]
    rfl
  next =>
    rw [List.reverse_append, List.reverse_reverse, Text.dropTrailing]

theorem dropLead_of_dotted {identifiers : List String} {text : List Char} (dotted : Dotted identifiers text) :
    dropLead "global::".toList (Text.trim Text.isWhitespace text) = Text.trim Text.isWhitespace text := by
  apply if_neg
  intro marked
  -- The mark would be kept, but what is kept of such a name holds no colon.
  obtain ⟨rest, split⟩ := List.isPrefixOf_iff_prefix.mp marked
  have kept := dropArguments_trim text
  rw [← split, dropArguments_solid solid_globalMark, (Leaves.dotted dotted).dropArguments_eq] at kept
  have colon : ':' ∈ (Text.join "." identifiers).toList := by
    rw [← kept]
    exact List.mem_append_left _ (by decide)
  exact (dotted.bare ':' colon).2 List.mem_cons_self

theorem ofWritten_of_spelled {identifiers : List String} {written : String}
    (spelled : Spelled identifiers written.toList) :
    ofWritten written = (Text.join "." identifiers).toList := by
  unfold ofWritten
  generalize written.toList = text at spelled
  cases spelled with
  | relative dotted =>
    rw [dropLead_of_dotted dotted, dropArguments_trim, (Leaves.dotted dotted).dropArguments_eq]
  | @global before text lead dotted =>
    rw [trim_of_globalMark lead, dropLead, if_pos (List.isPrefixOf_iff_prefix.mpr (List.prefix_append _ _)),
      List.drop_left, dropArguments_dropTrailing, (Leaves.dotted dotted).dropArguments_eq]

end Path

namespace DeclarationIndex

theorem resolve_congr {left right : String} (same : Path.ofWritten left = Path.ofWritten right)
    (index : DeclarationIndex) (scope : List Char) : index.resolve scope left = index.resolve scope right := by
  rw [resolve, resolve, same]

/-- A written name stands for its identifiers with dots between them. Wherever it is looked up, it means
what the plain dotted name means. -/
theorem written_name_means_plain_name {written : String} {identifiers : List String}
    (spelled : Path.Spelled identifiers written.toList) :
    Path.ofWritten written = (Text.join "." identifiers).toList ∧
    ∀ index : DeclarationIndex,
      index.get? written = index.get? (Text.join "." identifiers) ∧
      ∀ scope, index.resolve scope written = index.resolve scope (Text.join "." identifiers) := by
  have name := Path.ofWritten_of_spelled spelled
  have plain : Path.ofWritten (Text.join "." identifiers) = (Text.join "." identifiers).toList :=
    Path.ofWritten_of_bare spelled.bare
  refine ⟨name, fun index => ?_⟩
  have resolved := resolve_congr (name.trans plain.symm) index
  refine ⟨?_, resolved⟩
  rw [get?, get?, resolved]

/-- Type arguments with dots, brackets and blanks inside, between blanks of several kinds. -/
def knottyName : String := "\tglobal:: Outer <A.B<c>, d:>\n. Base< >"

theorem spelled_knottyName : Path.Spelled ["Outer", "Base"] knottyName.toList := by
  have space : Path.IsBlank [' '] := by decide
  have arguments : Path.Balanced ("A.B".toList ++ ('<' :: ['c'] ++ '>' :: ", d:".toList)) :=
    .level_append (by decide) (.nested (.level (by decide)) (.level (by decide)))
  have lineBreak : Path.IsBlank ['\n'] := by decide
  have outer := Path.Segment.generic (by decide : Path.IsUndivided "Outer") space space arguments lineBreak
  have base := Path.Segment.generic (by decide : Path.IsUndivided "Base") space (by decide : Path.IsBlank [])
    (.level (by decide : Path.IsLevel [' '])) (by decide : Path.IsBlank [])
  have spelled := Path.Spelled.global (by decide : Path.IsBlank ['\t']) (.more outer (.last base))
  simpa [knottyName] using spelled

theorem knotty_name_means_plain_name :
    Path.Spelled ["Outer", "Base"] knottyName.toList ∧
      Path.ofWritten knottyName = "Outer.Base".toList ∧
      (ofTree scopeTree).get? knottyName = some innerBase := by
  have found : (ofTree scopeTree).get? "Outer.Base" = some innerBase := by
    cbv
  obtain ⟨name, means⟩ := written_name_means_plain_name spelled_knottyName
  exact ⟨spelled_knottyName, name, (means _).1.trans found⟩

end DeclarationIndex

end Scribe
