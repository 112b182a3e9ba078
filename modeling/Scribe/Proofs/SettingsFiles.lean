import Mathlib.Algebra.Ring.Nat
import Scribe.Proofs.FaithfulReaders
import Scribe.Proofs.TomlDocuments
import Scribe.Proofs.WrittenFiles
import Scribe.Settings.File

/-! Settings written to a file and loaded from it again. All settings can be written but those with a limit
beyond the integers of a document, and loading judges what was written as it would judge the settings
themselves. -/

namespace Scribe.Settings

open Toml Data

theorem spelled_writtenList (items : List String) :
    (Value.array (items.map .string)).Spelled (writtenList items).toList := by
  match items with
  | [] => exact ⟨fun _ => rfl, _, _, rfl, rfl⟩
  | [item] =>
    have text : (writtenList [item]).toList = '[' :: ((written item).toList ++ [']']) := by
      simp [writtenList]
    rw [text]
    refine ⟨fun rest => ?_, _, _, rfl, rfl⟩
    obtain ⟨quote, more, started, unclosed, kept⟩ := skipLayout_string item (']' :: '\n' :: rest)
    have read : value? 78 ((written item).toList ++ ']' :: '\n' :: rest) =
        some (.string item, ']' :: '\n' :: rest) :=
      value?_string 78 item (by simp [Unquoted])
    rw [List.cons_append, List.append_assoc, List.singleton_append]
    rw [started] at read ⊢
    exact value?_array (arrayItems?_last kept unclosed read)
  | first :: second :: more =>
    have text : (writtenList (first :: second :: more)).toList =
        '[' :: '\n' :: ((first :: second :: more).flatMap itemLine ++ [']']) := by
      have each : (fun item : String => ("    " ++ written item ++ ",\n").toList) = itemLine := by
        funext item
        simp [itemLine]
      simp [writtenList, List.flatMap_map, ← each]
    rw [text]
    refine ⟨fun rest => ?_, _, _, rfl, rfl⟩
    simp only [List.cons_append, List.append_assoc]
    apply value?_array
    apply arrayItems?_lines
    have enough := length_le_itemLines (first :: second :: more)
    simp only [List.length_cons, List.length_append] at enough ⊢
    omega

/-- The sections of a settings file. -/
def sections (settings : Settings) : List (String × List (String × Value)) :=
  [("naming",
      [("prefix", .string settings.naming.lead),
        ("reserved", .array (settings.naming.reserved.map .string)),
        ("max_hint_length", .integer settings.naming.hintLimit.toNat)]),
    ("mapping",
      [("enabled", .boolean settings.mapping.enabled),
        ("first_output_line", .integer settings.mapping.firstLine.toNat)])]

theorem document_spells {settings : Settings} (writable : settings.naming.hintLimit.toNat < 1 <<< 63) :
    Spells (settings.sections.flatMap sectionLines) settings.document.toList := by
  have small : settings.mapping.firstLine.toNat < 1 <<< 63 :=
    Nat.lt_trans settings.mapping.firstLine.toNat_lt (by decide)
  have text : settings.document.toList =
      headerText "naming" ++
        (assignmentText "prefix" (written settings.naming.lead).toList ++
        (assignmentText "reserved" (writtenList settings.naming.reserved).toList ++
        (assignmentText "max_hint_length" (Nat.toDigits 10 settings.naming.hintLimit.toNat) ++
      '\n' :: (headerText "mapping" ++
        (assignmentText "enabled" (if settings.mapping.enabled then "true" else "false").toList ++
        (assignmentText "first_output_line" (Nat.toDigits 10 settings.mapping.firstLine.toNat) ++ [])))))) := by
    unfold document
    simp [headerText, assignmentText]
  rw [text]
  simp only [sections, sectionLines, List.flatMap_cons, List.flatMap_nil, List.map_cons, List.map_nil,
    List.cons_append, List.nil_append]
  exact .header (by decide) <| .assignment (by decide) (spelled_string _) <|
    .assignment (by decide) (spelled_writtenList _) <| .assignment (by decide) (spelled_natural writable) <|
    .blank <| .header (by decide) <| .assignment (by decide) (spelled_boolean _) <|
    .assignment (by decide) (spelled_natural small) .done

theorem itemsToData_strings (items : List String) :
    Value.itemsToData (items.map .string) = items.map .string := by
  induction items with
  | nil => rfl
  | cons item items ih => rw [List.map_cons, Value.itemsToData, ih, Value.toData, List.map_cons]

theorem toData_sections (settings : Settings) :
    (Value.table .header (settings.sections.map sectionTable)).toData = settings.toData := by
  simp [sections, sectionTable, Value.toData, Value.fieldsToData, itemsToData_strings, Settings.toData,
    NamingSettings.toData, MappingSettings.toData, Data.ofList]

theorem parse?_document {settings : Settings} (writable : settings.naming.hintLimit.toNat < 1 <<< 63) :
    Toml.parse? settings.document = some settings.toData := by
  have unmarked : settings.document.toList.head? ≠ some '\uFEFF' := by
    unfold document
    simp
  have built : ofLines? (settings.sections.flatMap sectionLines) =
      some (.table .header (settings.sections.map sectionTable)) :=
    ofLines?_sections (by simp [sections]) (by simp [sections])
  rw [Toml.parse?, (document_spells writable).lines? unmarked, Option.bind_some, built, Option.map_some,
    toData_sections]

theorem readUInt64_toNat (value : UInt64) (room : Nat) : readUInt64 room (.natural value.toNat) = some value := by
  rw [readUInt64, if_pos value.toNat_lt, UInt64.ofNat_toNat]

theorem readSettingFields_record {surplus : Surplus} {names : List String} {entries : List (String × Data)}
    (named : entries.map Prod.fst = names) (distinct : names.Nodup) (room : Nat) :
    readSettingFields surplus names (room + 1) (.record entries) = some ⟨room, entries⟩ :=
  readFields_record named distinct room

theorem read_toData (settings : Settings) :
    Settings.read .ignored documentRoom settings.toData = some settings := by
  have naming : NamingSettings.read .ignored 2 settings.naming.toData = some settings.naming := by
    have reserved : readList readString 1 (.ofList .string settings.naming.reserved) =
        some settings.naming.reserved :=
      faithful_string.list.read_encode (levels_list_le.mpr ⟨0, rfl, by simp [levels]⟩)
    simp [NamingSettings.read, NamingSettings.toData, readSettingFields_record, Fields.withDefault, Fields.get?,
      List.lookup_cons, readString, reserved, readUInt64_toNat]
  have mapping : MappingSettings.read .ignored 2 settings.mapping.toData = some settings.mapping := by
    simp [MappingSettings.read, MappingSettings.toData, readSettingFields_record, Fields.withDefault, Fields.get?,
      List.lookup_cons, readBool, readUInt32_toNat]
  simp [Settings.read, Settings.toData, documentRoom, readSettingFields_record, Fields.withDefault, Fields.get?,
    List.lookup_cons, naming, mapping]

theorem ofToml?_document {settings : Settings} (writable : settings.naming.hintLimit.toNat < 1 <<< 63) :
    ofToml? settings.document = some settings := by
  rw [ofToml?, parse?_document writable]
  exact read_toData settings

theorem fromUTF8?_toUTF8 (text : String) : String.fromUTF8? text.toUTF8 = some text := by
  have valid : text.toUTF8.IsValidUTF8 := text.isValidUTF8
  rw [String.fromUTF8?, dif_pos valid]
  rfl

/-- What loading gives for a file that holds the settings. -/
def loaded (settings : Settings) : Except SettingsFileError Settings :=
  match settings.invalid? with
  | some cause => .error (.invalid cause)
  | none => .ok settings

theorem load_of_read? {settings : Settings} {disk : Disk} {path text : String}
    (decoded : ofToml? text = some settings) (held : disk.read? path = some text.toUTF8) :
    load disk path = settings.loaded := by
  rw [load, held, Option.bind_some, fromUTF8?_toUTF8]
  simp only [decoded]
  rfl

theorem toToml?_of_writable {settings : Settings} (writable : settings.naming.hintLimit.toNat < 1 <<< 63) :
    settings.toToml? = some settings.document := by
  rw [toToml?, isWritable, decide_eq_true writable, if_pos rfl]

theorem save_of_unwritable {settings : Settings} (unwritable : ¬ settings.naming.hintLimit.toNat < 1 <<< 63)
    (path : String) (disk : Disk) : settings.save path disk = .error .serialize disk := by
  have unwritten : settings.toToml? = none := by
    rw [toToml?, isWritable, decide_eq_false unwritable, if_neg Bool.false_ne_true]
  rw [save, unwritten]

/-- A disk does not take a text if the directory around the file cannot be made, or if it is there and the file
still cannot be written. -/
def Refused (disk : Disk) (path text place : String) (after : Disk) : Prop :=
  prepare disk path = (.error place, after) ∨
    prepare disk path = (.ok (), after) ∧ place = path ∧ after.write? path text.toUTF8 = none

/-- Once there is a text, only the disk can refuse it. -/
theorem save_of_writable {settings : Settings} (writable : settings.naming.hintLimit.toNat < 1 <<< 63)
    (path : String) (disk : Disk) :
    (∃ after, settings.save path disk = .ok () after ∧ after.read? path = some settings.document.toUTF8) ∨
      ∃ place after, settings.save path disk = .error (.io place) after ∧
        Refused disk path settings.document place after := by
  unfold save
  rw [toToml?_of_writable writable]
  dsimp only
  split
  next parent ready unprepared => exact .inr ⟨parent, ready, rfl, .inl unprepared⟩
  next ready prepared =>
    cases written : ready.write? path settings.document.toUTF8 with
    | none => exact .inr ⟨path, ready, rfl, .inr ⟨prepared, rfl, written⟩⟩
    | some after => exact .inl ⟨after, rfl, Disk.read?_write? written⟩

/-- Saving fails for want of a text exactly if the limit is beyond the signed integers, and then the disk stays
as it was. All other settings have a text that says exactly what they are, whatever strings they hold. Saving
puts it into the file unless the disk refuses, and loading any file with it gives the settings if they are valid
and otherwise what is wrong with them. -/
theorem saved_settings_load_back (settings : Settings) (path : String) (disk : Disk) :
    ((∃ after, settings.save path disk = .error .serialize after) ↔
      2 ^ 63 - 1 < settings.naming.hintLimit.toNat) ∧
    (2 ^ 63 - 1 < settings.naming.hintLimit.toNat → settings.save path disk = .error .serialize disk) ∧
    (settings.naming.hintLimit.toNat ≤ 2 ^ 63 - 1 →
      ∃ text, settings.toToml? = some text ∧ ofToml? text = some settings ∧
        (∀ (holder : Disk) (place : String),
          holder.read? place = some text.toUTF8 → load holder place = settings.loaded) ∧
        ((∃ after, settings.save path disk = .ok () after ∧ after.read? path = some text.toUTF8 ∧
            load after path = settings.loaded) ∨
          ∃ place after, settings.save path disk = .error (.io place) after ∧
            Refused disk path text place after)) := by
  have bound : 1 <<< 63 = 2 ^ 63 := rfl
  by_cases writable : settings.naming.hintLimit.toNat < 1 <<< 63
  · have decoded := ofToml?_document writable
    have saving := save_of_writable writable path disk
    refine ⟨iff_of_false ?_ (by omega), fun beyond => absurd writable (by omega), fun _ => ?_⟩
    · rintro ⟨after, failed⟩
      obtain ⟨_, saved, _⟩ | ⟨_, _, refused, _⟩ := saving
      · cases saved.symm.trans failed
      · cases refused.symm.trans failed
    · refine ⟨settings.document, toToml?_of_writable writable, decoded, fun _ _ => load_of_read? decoded, ?_⟩
      obtain ⟨after, saved, held⟩ | refused := saving
      · exact .inl ⟨after, saved, held, load_of_read? decoded held⟩
      · exact .inr refused
  · have failed := save_of_unwritable writable path disk
    exact ⟨iff_of_true ⟨disk, failed⟩ (by omega), fun _ => failed, fun within => absurd within (by omega)⟩

/-- Settings with the largest limit that can be written and names for each form of a string. -/
def quotedNames : Settings where
  naming := {
    lead := "_x1"
    reserved := ["", "plain", "say \"hi\"", "C:\\it's", "two\nlines", "\r\x7f", "'''\\\"\"\"", "\\\n'''", "é\t\x00"]
    hintLimit := 9223372036854775807 }
  mapping := { enabled := false, firstLine := 4294967295 }

def hasSaved (settings : Settings) (path : String) (disk : Disk) : Bool :=
  match settings.save path disk with
  | .ok _ _ => true
  | .error _ _ => false

/-- Settings with a limit that is too large by one. -/
def unwritableLimit : Settings where
  naming := { hintLimit := 9223372036854775808 }

theorem quoted_names_load_back :
    (∃ after, quotedNames.save "config/scribe.toml" .empty = .ok () after ∧
      load after "config/scribe.toml" = .ok quotedNames) ∧
    unwritableLimit.save "config/scribe.toml" .empty = .error .serialize .empty := by
  refine ⟨?_, (saved_settings_load_back unwritableLimit "config/scribe.toml" .empty).2.1 (by decide)⟩
  obtain ⟨_, _, written⟩ := saved_settings_load_back quotedNames "config/scribe.toml" .empty
  obtain ⟨_, _, _, _, ⟨after, saved, _, loads⟩ | ⟨_, _, refused, _⟩⟩ := written (by decide)
  · exact ⟨after, saved, loads⟩
  · have saved : hasSaved quotedNames "config/scribe.toml" .empty = true := by decide +kernel
    rw [hasSaved, refused] at saved
    cases saved

end Scribe.Settings
