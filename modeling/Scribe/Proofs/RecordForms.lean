import Mathlib.Data.List.Nodup
import Mathlib.Data.List.Perm.Basic
import Scribe.Proofs.JsonDocuments
import Scribe.Proofs.KeyedLists
import Scribe.Source.Encoding

/-! The ways to write a record. Readers take a record field by field in any order, or as the list of its
values, and find the same values in both. -/

namespace Scribe

namespace Data

variable {names : List String} {values : List Data} {data : Data}

/-- A record of named values in any order, or the list of the values in the order of the names. -/
inductive Presents (names : List String) (values : List Data) : Data → Prop
  | record {fields : List (String × Data)} (same : fields.Perm (names.zip values)) :
      Presents names values (.record fields)
  | list : Presents names values (.list values)

theorem Presents.isPlain (presents : Presents names values data) (plain : ∀ value ∈ values, value.IsPlain) :
    data.IsPlain := by
  cases presents with
  | record same =>
    apply IsPlain.record
    intro field member
    exact plain field.2 (List.of_mem_zip (same.mem_iff.mp member)).2
  | list => exact .list plain

/-- The fields of a record in any order are the ones to read. -/
theorem ofRecord?_of_perm {fields : List (String × Data)} (same : fields.Perm (names.zip values))
    (distinct : names.Nodup) (sized : values.length = names.length) (room : Nat) :
    (fields.map Prod.fst).Nodup ∧ Fields.ofRecord? names room fields = some ⟨room, fields⟩ := by
  have once : (fields.map Prod.fst).Nodup := by
    rw [(same.map Prod.fst).nodup_iff, List.map_fst_zip (by omega)]
    exact distinct
  have known : fields.filter (fun field => names.contains field.1) = fields := by
    apply List.filter_eq_self.mpr
    intro field member
    exact List.contains_iff_mem.mpr (List.of_mem_zip (same.mem_iff.mp member)).1
  refine ⟨once, ?_⟩
  simp only [Fields.ofRecord?, known, once, if_pos]

/-- A reader finds every value under its name, whichever way they are presented. -/
theorem Presents.readFields (presents : Presents names values data) (distinct : names.Nodup)
    (sized : values.length = names.length) (room : Nat) :
    ∃ found, readFields names (room + 1) data = some found ∧
      ∀ name value, (name, value) ∈ names.zip values →
        ∀ {α : Type} (read : Reader α), found.required name read = read room value := by
  have found : ∃ fields, fields.Perm (names.zip values) ∧
      Data.readFields names (room + 1) data = some ⟨room, fields⟩ := by
    cases presents with
    | @record fields same => exact ⟨fields, same, (ofRecord?_of_perm same distinct sized room).2⟩
    | list =>
      refine ⟨names.zip values, .refl _, ?_⟩
      rw [Data.readFields, if_pos sized]
  obtain ⟨fields, same, opened⟩ := found
  have once := (ofRecord?_of_perm same distinct sized room).1
  refine ⟨_, opened, ?_⟩
  intro name value member α read
  rw [Fields.required, Fields.get?, lookup_of_mem once (same.mem_iff.mpr member)]
  rfl

theorem readUInt32_toNat (value : UInt32) (room : Nat) :
    readUInt32 room (.natural value.toNat) = some value := by
  rw [readUInt32, if_pos value.toNat_lt, UInt32.ofNat_toNat]

end Data

open Data

/-- The ways to write a position. -/
def Position.Form (position : Position) : Data → Prop :=
  Presents ["line", "column"] [.natural position.line.toNat, .natural position.column.toNat]

theorem Position.Form.read {position : Position} {data : Data} (form : position.Form data) (room : Nat) :
    Position.read (room + 1) data = some position := by
  obtain ⟨found, opened, required⟩ := form.readFields (by decide) rfl room
  have line := required "line" (.natural position.line.toNat) (by simp) readUInt32
  have column := required "column" (.natural position.column.toNat) (by simp) readUInt32
  simp [Position.read, opened, line, column, readUInt32_toNat]

theorem Position.Form.isPlain {position : Position} {data : Data} (form : position.Form data) :
    data.IsPlain := by
  apply Presents.isPlain form
  simp [IsPlain.natural]

theorem Position.form_toData (position : Position) : position.Form position.toData :=
  .record (.refl _)

end Scribe
