import Scribe.Data.Read
import Scribe.Settings.Basic

/-!
Settings as data trees. Every part may be left out and then has its default. Written as a list, a
group of settings may stop early; whether a list may be too long depends on the text format.
-/

namespace Scribe

open Data

/-- What becomes of list items beyond the last setting. -/
inductive Surplus where
  | refused
  | ignored
deriving DecidableEq, Repr

def readSettingFields (surplus : Surplus) (names : List String) : Reader Fields
  | room + 1, .list items =>
    if items.length ≤ names.length ∨ surplus = .ignored then some ⟨room, names.zip items⟩ else none
  | room + 1, .record fields => Fields.ofRecord? names room fields
  | _, _ => none

namespace NamingSettings

def toData (settings : NamingSettings) : Data :=
  .record [("prefix", .string settings.lead), ("reserved", .ofList .string settings.reserved),
    ("max_hint_length", .natural settings.hintLimit.toNat)]

def read (surplus : Surplus) : Reader NamingSettings
  | room, data => do
    let defaults : NamingSettings := {}
    let fields ← readSettingFields surplus ["prefix", "reserved", "max_hint_length"] room data
    let lead ← fields.withDefault "prefix" defaults.lead readString
    let reserved ← fields.withDefault "reserved" defaults.reserved (readList readString)
    return ⟨lead, reserved, ← fields.withDefault "max_hint_length" defaults.hintLimit readUInt64⟩

end NamingSettings

namespace MappingSettings

def toData (settings : MappingSettings) : Data :=
  .record [("enabled", .bool settings.enabled),
    ("first_output_line", .natural settings.firstLine.toNat)]

def read (surplus : Surplus) : Reader MappingSettings
  | room, data => do
    let defaults : MappingSettings := {}
    let fields ← readSettingFields surplus ["enabled", "first_output_line"] room data
    let enabled ← fields.withDefault "enabled" defaults.enabled readBool
    return ⟨enabled, ← fields.withDefault "first_output_line" defaults.firstLine readUInt32⟩

end MappingSettings

namespace Settings

def toData (settings : Settings) : Data :=
  .record [("naming", settings.naming.toData), ("mapping", settings.mapping.toData)]

def read (surplus : Surplus) : Reader Settings
  | room, data => do
    let fields ← readSettingFields surplus ["naming", "mapping"] room data
    let naming ← fields.withDefault "naming" {} (NamingSettings.read surplus)
    return ⟨naming, ← fields.withDefault "mapping" {} (MappingSettings.read surplus)⟩

end Settings

end Scribe
