import Mathlib.Data.List.Forall2
import Scribe.Mapping.Record
import Scribe.Proofs.RecordForms

/-! Mapping lists as text. The writer judges nothing and the reader refuses blocks that end before they
start, so a list comes back from its text exactly if it has no such block. -/

namespace Scribe

open Data

def OutputLine.Form (place : OutputLine) : Data → Prop :=
  Presents ["line"] [.natural place.line.toNat]

def OutputBlock.Form (block : OutputBlock) (data : Data) : Prop :=
  ∃ start finish, block.start.Form start ∧ block.finish.Form finish ∧
    Presents ["begin", "end"] [start, finish] data

namespace Mapping

def SourceForm (source : Span) (data : Data) : Prop :=
  ∃ start finish, source.start.Form start ∧ source.finish.Form finish ∧
    Presents ["begin", "end"] [start, finish] data

/-- The ways to write a mapping. The output block goes by either of its names. -/
def Form (mapping : Mapping) (data : Data) : Prop :=
  ∃ source output, ∃ name ∈ ["output", "cecilified"],
    SourceForm mapping.source source ∧ mapping.output.Form output ∧
      Presents ["source", name] [source, output] data

end Mapping

section Reading

variable {data : Data}

theorem OutputLine.Form.read {place : OutputLine} (form : place.Form data) (room : Nat) :
    OutputLine.read (room + 1) data = some place := by
  obtain ⟨found, opened, required⟩ := form.readFields (by decide) rfl room
  have line := required "line" (.natural place.line.toNat) (by simp) readUInt32
  simp [OutputLine.read, opened, line, readUInt32_toNat]

theorem OutputLine.Form.isPlain {place : OutputLine} (form : place.Form data) : data.IsPlain := by
  apply Presents.isPlain form
  simp [IsPlain.natural]

theorem OutputBlock.Form.read {block : OutputBlock} (form : block.Form data) (room : Nat) :
    OutputBlock.read (room + 2) data = some block := by
  obtain ⟨start, finish, startForm, finishForm, presents⟩ := form
  obtain ⟨found, opened, required⟩ := presents.readFields (by decide) rfl (room + 1)
  have first := required "begin" start (by simp) OutputLine.read
  have last := required "end" finish (by simp) OutputLine.read
  simp [OutputBlock.read, opened, first, last, startForm.read, finishForm.read]

theorem OutputBlock.Form.isPlain {block : OutputBlock} (form : block.Form data) : data.IsPlain := by
  obtain ⟨start, finish, startForm, finishForm, presents⟩ := form
  apply presents.isPlain
  simp [startForm.isPlain, finishForm.isPlain]

namespace Mapping

theorem readSource_of_form {source : Span} (form : SourceForm source data) (room : Nat) :
    readSource (room + 2) data = some source := by
  obtain ⟨start, finish, startForm, finishForm, presents⟩ := form
  obtain ⟨found, opened, required⟩ := presents.readFields (by decide) rfl (room + 1)
  have first := required "begin" start (by simp) Position.read
  have last := required "end" finish (by simp) Position.read
  simp [readSource, opened, first, last, startForm.read, finishForm.read]

/-- Under its current name the older form is a form too. -/
theorem presents_currentNames {name : String} (known : name ∈ ["output", "cecilified"]) {source output : Data}
    (presents : Presents ["source", name] [source, output] data) :
    Presents ["source", "output"] [source, output] (currentNames data) := by
  cases presents with
  | list => exact .list
  | record same =>
    apply Presents.record
    refine (same.map _).trans (.of_eq ?_)
    rcases List.mem_pair.mp known with rfl | rfl
    · rfl
    · rfl

theorem Form.read {mapping : Mapping} (form : mapping.Form data) (room : Nat) :
    Mapping.read (room + 3) data = some mapping := by
  obtain ⟨source, output, name, known, sourceForm, outputForm, presents⟩ := form
  obtain ⟨found, opened, required⟩ :=
    (presents_currentNames known presents).readFields (by decide) rfl (room + 2)
  have sourceRead := required "source" source (by simp) readSource
  have outputRead := required "output" output (by simp) OutputBlock.read
  simp [Mapping.read, opened, sourceRead, outputRead, readSource_of_form sourceForm, outputForm.read]

theorem SourceForm.isPlain {source : Span} (form : SourceForm source data) : data.IsPlain := by
  obtain ⟨start, finish, startForm, finishForm, presents⟩ := form
  apply presents.isPlain
  simp [startForm.isPlain, finishForm.isPlain]

theorem Form.isPlain {mapping : Mapping} (form : mapping.Form data) : data.IsPlain := by
  obtain ⟨source, output, name, _, sourceForm, outputForm, presents⟩ := form
  apply presents.isPlain
  simp [sourceForm.isPlain, outputForm.isPlain]

theorem form_toData (mapping : Mapping) : mapping.Form mapping.toData := by
  refine ⟨_, _, "output", List.mem_cons_self, ?_, ?_, .record (.refl _)⟩
  · exact ⟨_, _, mapping.source.start.form_toData, mapping.source.finish.form_toData, .record (.refl _)⟩
  · exact ⟨_, _, .record (.refl _), .record (.refl _), .record (.refl _)⟩

/-- Neither block ends before it starts. -/
def IsUpright (mapping : Mapping) : Prop :=
  ¬ mapping.source.finish < mapping.source.start ∧
    ¬ mapping.output.finish.line < mapping.output.start.line

/-- What is said about the mapping at an index if it is not upright. The source block has precedence. -/
def complaint (mapping : Mapping) (index : Nat) : String :=
  if mapping.source.finish < mapping.source.start then
    s!"mapping {index}: source block ends at {mapping.source.finish.text} " ++
      s!"before it begins at {mapping.source.start.text}"
  else
    s!"mapping {index}: output block ends at line {mapping.output.finish.line} " ++
      s!"before it begins at line {mapping.output.start.line}"

end Mapping

end Reading

namespace MappingList

/-- The ways to write a list of mappings. -/
def Form (mappings : List Mapping) (data : Data) : Prop :=
  ∃ items, data = .list items ∧ List.Forall₂ Mapping.Form mappings items

theorem form_ofList (mappings : List Mapping) : Form mappings (.ofList Mapping.toData mappings) := by
  refine ⟨_, rfl, ?_⟩
  apply List.forall₂_map_right_iff.mpr
  exact List.forall₂_same.mpr fun mapping _ => mapping.form_toData

theorem Form.isPlain {mappings : List Mapping} {data : Data} (form : Form mappings data) :
    data.IsPlain := by
  obtain ⟨items, rfl, forms⟩ := form
  apply IsPlain.list
  induction forms with
  | nil => exact List.forall_mem_nil _
  | cons form _ ih => exact List.forall_mem_cons.mpr ⟨form.isPlain, ih⟩

theorem Form.read {mappings : List Mapping} {data : Data} (form : Form mappings data) :
    readList Mapping.read jsonRoom data = some mappings := by
  obtain ⟨items, rfl, forms⟩ := form
  -- The list takes one level of the room, and a mapping three.
  have each : items.mapM (Mapping.read 126) = some mappings := by
    induction forms with
    | nil => rfl
    | cons form _ ih =>
      rw [List.mapM_cons, form.read 123, ih]
      rfl
  exact each

/-- What the reader makes of the mappings that it has found. -/
def judge (mappings : List Mapping) : Except MappingTextError MappingList :=
  match mappings.zipIdx.findSome? fun (mapping, index) => fault? index mapping with
  | some cause => .error cause
  | none => .ok (ofMappings mappings)

theorem ofJson_of_form {mappings : List Mapping} {data : Data} {text : String} (form : Form mappings data)
    (spells : Json.Spells (Json.tokensOf data) text.toList) : ofJson text = judge mappings := by
  have read : (Json.parse? text).bind (readList Mapping.read jsonRoom) = some mappings := by
    rw [Json.parse?_of_spells form.isPlain spells]
    exact form.read
  rw [ofJson, read]
  rfl

theorem ofJson_toJson (list : MappingList) : ofJson list.toJson = judge list.mappings :=
  ofJson_of_form (form_ofList _) (Json.pretty_spells (form_ofList _).isPlain)

theorem fault?_cases (index : Nat) (mapping : Mapping) :
    mapping.IsUpright ∧ fault? index mapping = none ∨
      ¬ mapping.IsUpright ∧ ∃ cause, fault? index mapping = some cause ∧
        cause.message? = some (mapping.complaint index) := by
  by_cases source : mapping.source.finish < mapping.source.start
  · right
    refine ⟨fun upright => upright.1 source, .sourceInverted index mapping.source, ?_, ?_⟩
    · simp [fault?, Span.isInverted, source]
    · rw [Mapping.complaint, if_pos source]
      rfl
  · by_cases output : mapping.output.finish.line < mapping.output.start.line
    · right
      refine ⟨fun upright => upright.2 output, .outputInverted index mapping.output, ?_, ?_⟩
      · simp [fault?, Span.isInverted, OutputBlock.isInverted, source, output]
      · rw [Mapping.complaint, if_neg source]
        rfl
    · left
      refine ⟨⟨source, output⟩, ?_⟩
      simp [fault?, Span.isInverted, OutputBlock.isInverted, source, output]

theorem fault?_eq_none_iff {index : Nat} {mapping : Mapping} :
    fault? index mapping = none ↔ mapping.IsUpright := by
  rcases fault?_cases index mapping with ⟨upright, quiet⟩ | ⟨crooked, cause, faulty, _⟩
  · exact iff_of_true quiet upright
  · rw [faulty]
    exact iff_of_false nofun crooked

theorem findSome?_fault?_eq_none_iff {mappings : List Mapping} (start : Nat) :
    (mappings.zipIdx start).findSome? (fun (mapping, index) => fault? index mapping) = none ↔
      ∀ mapping ∈ mappings, mapping.IsUpright := by
  rw [List.findSome?_eq_none_iff]
  constructor
  · intro quiet mapping member
    rw [← List.zipIdx_map_fst start mappings] at member
    obtain ⟨⟨_, index⟩, placed, rfl⟩ := List.mem_map.mp member
    exact fault?_eq_none_iff.mp (quiet _ placed)
  · intro upright ⟨mapping, index⟩ placed
    exact fault?_eq_none_iff.mpr (upright mapping (List.fst_mem_of_mem_zipIdx placed))

theorem judge_of_upright {mappings : List Mapping} (upright : ∀ mapping ∈ mappings, mapping.IsUpright) :
    judge mappings = .ok (ofMappings mappings) := by
  rw [judge, (findSome?_fault?_eq_none_iff 0).mpr upright]

theorem judge_eq_ok {mappings : List Mapping} {list : MappingList} (accepted : judge mappings = .ok list) :
    (∀ mapping ∈ mappings, mapping.IsUpright) ∧ list = ofMappings mappings := by
  rw [judge] at accepted
  split at accepted
  next => cases accepted
  next quiet =>
    cases accepted
    exact ⟨(findSome?_fault?_eq_none_iff 0).mp quiet, rfl⟩

theorem upright_of_ofJson {text : String} {list : MappingList} (accepted : ofJson text = .ok list) :
    ∃ mappings, (∀ mapping ∈ mappings, mapping.IsUpright) ∧ list = ofMappings mappings := by
  rw [ofJson] at accepted
  split at accepted
  next => cases accepted
  next mappings _ => exact ⟨mappings, judge_eq_ok accepted⟩

theorem judge_crooked {before after : List Mapping} {mapping : Mapping}
    (upright : ∀ earlier ∈ before, earlier.IsUpright) (crooked : ¬ mapping.IsUpright) :
    ∃ cause, judge (before ++ mapping :: after) = .error cause ∧
      cause.message? = some (mapping.complaint before.length) := by
  rcases fault?_cases before.length mapping with ⟨alsoUpright, _⟩ | ⟨_, cause, faulty, message⟩
  · exact absurd alsoUpright crooked
  · refine ⟨cause, ?_, message⟩
    rw [judge, List.zipIdx_append, List.findSome?_append, (findSome?_fault?_eq_none_iff 0).mpr upright,
      Option.none_or, Nat.zero_add, List.zipIdx_cons, List.findSome?_cons]
    simp only [faulty]

theorem mappings_ofMappings (mappings : List Mapping) : (ofMappings mappings).mappings = mappings := by
  rw [MappingList.mappings, ofMappings, List.map_map]
  exact List.zipIdx_map_fst 0 mappings

/-- A list is read back from its text, up to the numbering of its entries, exactly if all its mappings are
upright. Otherwise the first one that is not is complained about. Every list that some text is read as comes
back unchanged, and it comes from every other way to write it too. -/
theorem upright_lists_survive_text (list : MappingList) :
    ((∃ back, ofJson list.toJson = .ok back ∧ back.mappings = list.mappings ∧
        ∀ line, back.atOutputLine? line = list.atOutputLine? line ∧
          back.atSourceLine line = list.atSourceLine line) ↔
      ∀ mapping ∈ list.mappings, mapping.IsUpright) ∧
    (∀ before mapping after, list.mappings = before ++ mapping :: after →
      (∀ earlier ∈ before, earlier.IsUpright) → ¬ mapping.IsUpright →
      ∃ cause, ofJson list.toJson = .error cause ∧
        cause.message? = some (mapping.complaint before.length)) ∧
    (∀ text, ofJson text = .ok list → ofJson list.toJson = .ok list) ∧
    (∀ data text, Form list.mappings data → Json.Spells (Json.tokensOf data) text.toList →
      ofJson text = ofJson list.toJson) := by
  refine ⟨⟨?_, ?_⟩, ?_, ?_, ?_⟩
  · intro ⟨back, accepted, _⟩
    rw [ofJson_toJson] at accepted
    exact (judge_eq_ok accepted).1
  · intro upright
    have same := mappings_ofMappings list.mappings
    refine ⟨ofMappings list.mappings, ?_, same, ?_⟩
    · rw [ofJson_toJson, judge_of_upright upright]
    · intro line
      simp only [atOutputLine?, atSourceLine, same, and_self]
  · intro before mapping after divided upright crooked
    rw [ofJson_toJson, divided]
    exact judge_crooked upright crooked
  · intro text accepted
    obtain ⟨mappings, upright, rfl⟩ := upright_of_ofJson accepted
    rw [ofJson_toJson, mappings_ofMappings, judge_of_upright upright]
  · intro data text form spells
    rw [ofJson_toJson, ofJson_of_form form spells]

/-- One mapping in the older spelling, with some records as lists and blanks of several kinds. -/
def olderText : String :=
  "[ \x7b\"cecilified\" : \x7b\"end\":[3],\n\t\"begin\":\x7b\"line\":1\x7d\x7d, " ++
    "\"source\":[[1,1],\x7b\"column\":5,\"line\":2\x7d]\x7d ]"

def olderMapping : Mapping :=
  ⟨⟨⟨1, 1⟩, ⟨2, 5⟩⟩, ⟨⟨1⟩, ⟨3⟩⟩⟩

/-- Both blocks end before they start. -/
def crookedMapping : Mapping :=
  ⟨⟨⟨2, 1⟩, ⟨1, 4⟩⟩, ⟨⟨3⟩, ⟨2⟩⟩⟩

theorem older_text_survives :
    (ofJson olderText = .ok (ofMappings [olderMapping]) ∧
      ofJson (ofMappings [olderMapping]).toJson = .ok (ofMappings [olderMapping])) ∧
    ∃ cause, ofJson (ofMappings [olderMapping, crookedMapping]).toJson = .error cause ∧
      cause.message? = some "mapping 1: source block ends at 1:4 before it begins at 2:1" := by
  have read : ofJson olderText = .ok (ofMappings [olderMapping]) := by
    decide +kernel
  have upright : ∀ earlier ∈ [olderMapping], earlier.IsUpright :=
    List.forall_mem_singleton.mpr ⟨by decide, by decide⟩
  have crooked : ¬ crookedMapping.IsUpright := fun upright => upright.1 (by decide)
  refine ⟨⟨read, (upright_lists_survive_text _).2.2.1 olderText read⟩, ?_⟩
  exact (upright_lists_survive_text (ofMappings [olderMapping, crookedMapping])).2.1 [olderMapping]
    crookedMapping [] rfl upright crooked

end MappingList

end Scribe
