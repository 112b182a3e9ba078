import Scribe.Proofs.RecordForms

/-! Readers that take back what was written. A reader has room for so many levels of lists and records, and
what it gives can be written within that room, whatever the tree looked like that it was read from. -/

namespace Scribe.Data

variable {α : Type}

mutual

/-- How deep lists and records are nested in a tree. -/
def levels : Data → Nat
  | .list items => itemLevels items + 1
  | .record fields => fieldLevels fields + 1
  | .null | .bool _ | .natural _ | .number _ | .string _ | .garbled => 0

def itemLevels : List Data → Nat
  | [] => 0
  | item :: rest => max (levels item) (itemLevels rest)

def fieldLevels : List (String × Data) → Nat
  | [] => 0
  | (_, value) :: rest => max (levels value) (fieldLevels rest)

end

theorem itemLevels_le {items : List Data} {room : Nat} :
    itemLevels items ≤ room ↔ ∀ item ∈ items, item.levels ≤ room := by
  induction items with
  | nil => simp [itemLevels]
  | cons item rest ih => rw [itemLevels, Nat.max_le, ih, List.forall_mem_cons]

theorem fieldLevels_le {fields : List (String × Data)} {room : Nat} :
    fieldLevels fields ≤ room ↔ ∀ field ∈ fields, field.2.levels ≤ room := by
  induction fields with
  | nil => simp [fieldLevels]
  | cons field rest ih => rw [fieldLevels, Nat.max_le, ih, List.forall_mem_cons]

theorem levels_list_le {items : List Data} {room : Nat} :
    (Data.list items).levels ≤ room ↔ ∃ inner, room = inner + 1 ∧ ∀ item ∈ items, item.levels ≤ inner := by
  rw [levels]
  simp only [← itemLevels_le]
  constructor
  · intro fits
    exact ⟨room - 1, by omega, by omega⟩
  · rintro ⟨inner, rfl, fits⟩
    omega

theorem levels_record_le {fields : List (String × Data)} {room : Nat} :
    (Data.record fields).levels ≤ room ↔
      ∃ inner, room = inner + 1 ∧ ∀ field ∈ fields, field.2.levels ≤ inner := by
  rw [levels]
  simp only [← fieldLevels_le]
  constructor
  · intro fits
    exact ⟨room - 1, by omega, by omega⟩
  · rintro ⟨inner, rfl, fits⟩
    omega

/-- A reader takes back what is written within its room, and gives nothing that does not fit there. -/
structure Faithful (encode : α → Data) (read : Reader α) : Prop where
  plain (value : α) : (encode value).IsPlain
  read_encode {room : Nat} {value : α} (fits : (encode value).levels ≤ room) :
    read room (encode value) = some value
  levels_le {room : Nat} {data : Data} {value : α} (found : read room data = some value) :
    (encode value).levels ≤ room

theorem faithful_string : Faithful .string readString where
  plain text := .string text
  read_encode _ := rfl
  levels_le _ := Nat.zero_le _

section Lists

variable {encode : α → Data} {read : Reader α}

theorem mapM_encode {room : Nat} {values : List α}
    (each : ∀ value ∈ values, read room (encode value) = some value) :
    (values.map encode).mapM (read room) = some values := by
  induction values with
  | nil => rfl
  | cons value rest ih =>
    obtain ⟨first, others⟩ := List.forall_mem_cons.mp each
    rw [List.map_cons, List.mapM_cons, first, ih others]
    rfl

theorem exists_of_mapM {β : Type} {f : β → Option α} {items : List β} {values : List α}
    (found : items.mapM f = some values) : ∀ value ∈ values, ∃ item, f item = some value := by
  induction items generalizing values with
  | nil =>
    cases found
    exact List.forall_mem_nil _
  | cons item rest ih =>
    simp only [List.mapM_cons, Option.bind_eq_bind, Option.bind_eq_some_iff] at found
    obtain ⟨first, firstFound, others, othersFound, ended⟩ := found
    cases ended
    exact List.forall_mem_cons.mpr ⟨⟨item, firstFound⟩, ih othersFound⟩

theorem room_of_items? {room inner : Nat} {data : Data} {items : List Data}
    (opened : data.items? room = some (items, inner)) : room = inner + 1 := by
  unfold items? at opened
  split at opened
  next =>
    cases opened
    rfl
  next => cases opened

theorem Faithful.list (faithful : Faithful encode read) : Faithful (.ofList encode) (readList read) where
  plain values := by
    apply IsPlain.list
    intro item member
    obtain ⟨value, _, rfl⟩ := List.mem_map.mp member
    exact faithful.plain value
  read_encode := by
    intro room values fits
    obtain ⟨inner, rfl, each⟩ := levels_list_le.mp fits
    rw [ofList, readList]
    simp only [items?, Option.bind_eq_bind, Option.bind_some]
    apply mapM_encode
    intro value member
    exact faithful.read_encode (each _ (List.mem_map_of_mem member))
  levels_le := by
    intro room data values found
    simp only [readList, Option.bind_eq_bind, Option.bind_eq_some_iff] at found
    obtain ⟨⟨items, inner⟩, opened, read⟩ := found
    obtain rfl := room_of_items? opened
    refine levels_list_le.mpr ⟨inner, rfl, ?_⟩
    intro item member
    obtain ⟨value, held, rfl⟩ := List.mem_map.mp member
    obtain ⟨source, valueRead⟩ := exists_of_mapM read value held
    exact faithful.levels_le valueRead

end Lists

section Records

variable {names : List String} {entries : List (String × Data)} {fields : Fields} {name : String}
  {room : Nat} {data : Data} {encode : α → Data} {read : Reader α}

theorem readFields_record (named : entries.map Prod.fst = names) (distinct : names.Nodup) (room : Nat) :
    readFields names (room + 1) (.record entries) = some ⟨room, entries⟩ := by
  have same : entries.Perm (names.zip (entries.map Prod.snd)) := by
    have rejoined := List.zip_unzip entries
    rw [List.unzip_eq_map] at rejoined
    rw [← named, rejoined]
  have sized : (entries.map Prod.snd).length = names.length := by simp [← named]
  exact (ofRecord?_of_perm same distinct sized room).2

theorem room_of_readFields (opened : readFields names room data = some fields) : room = fields.room + 1 := by
  unfold readFields at opened
  split at opened
  next =>
    split at opened
    next =>
      cases opened
      rfl
    next => cases opened
  next =>
    unfold Fields.ofRecord? at opened
    simp only at opened
    split at opened
    next =>
      cases opened
      rfl
    next => cases opened
  next => cases opened

/-- What fits into the room that is left for the fields makes a record that fits. -/
theorem levels_record_le_of_readFields (opened : readFields names room data = some fields)
    (each : ∀ entry ∈ entries, entry.2.levels ≤ fields.room) : (Data.record entries).levels ≤ room :=
  levels_record_le.mpr ⟨fields.room, room_of_readFields opened, each⟩

theorem Faithful.required_levels_le (faithful : Faithful encode read) {value : α}
    (found : fields.required name read = some value) : (encode value).levels ≤ fields.room := by
  simp only [Fields.required, Option.bind_eq_bind, Option.bind_eq_some_iff] at found
  obtain ⟨data, _, valueRead⟩ := found
  exact faithful.levels_le valueRead

theorem Faithful.optional_levels_le (faithful : Faithful encode read) {value : Option α}
    (found : fields.optional name read = some value) : (ofOption encode value).levels ≤ fields.room := by
  unfold Fields.optional at found
  split at found
  next =>
    cases found
    exact Nat.zero_le _
  next =>
    cases found
    exact Nat.zero_le _
  next =>
    obtain ⟨inner, innerRead, rfl⟩ := Option.map_eq_some_iff.mp found
    exact faithful.levels_le innerRead

theorem Faithful.plain_ofOption (faithful : Faithful encode read) (value : Option α) :
    (ofOption encode value).IsPlain := by
  cases value with
  | none => exact .null
  | some inner => exact faithful.plain inner

end Records

end Scribe.Data
