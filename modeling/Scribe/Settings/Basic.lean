/-!
Settings of a run. Settings from several places are merged: a value that differs from the default
wins over what was set before, reserved names add up, and mapping stays off once it is off.
-/

namespace Scribe

structure NamingSettings where
  /-- What every name starts with, after the marker. -/
  lead : String := ""
  reserved : List String := []
  hintLimit : UInt64 := 32
deriving DecidableEq, Repr

structure MappingSettings where
  enabled : Bool := true
  firstLine : UInt32 := 1
deriving DecidableEq, Repr

structure Settings where
  naming : NamingSettings := {}
  mapping : MappingSettings := {}
deriving DecidableEq, Repr

inductive InvalidSetting where
  | hintLimit
  | lead (text : String)
  | firstLine
deriving DecidableEq, Repr

namespace InvalidSetting

def field : InvalidSetting → String
  | .hintLimit => "naming.max_hint_length"
  | .lead _ => "naming.prefix"
  | .firstLine => "mapping.first_output_line"

def reason : InvalidSetting → String
  | .hintLimit => "Hint length must be at least 1"
  | .lead text => s!"'{text}' cannot start an identifier"
  | .firstLine => "Output lines are numbered from 1"

def message (invalid : InvalidSetting) : String :=
  s!"Invalid configuration for {invalid.field}: {invalid.reason}"

end InvalidSetting

/-- The text can be followed by more characters to make an identifier. -/
def startsIdentifier (text : String) : Bool :=
  text.toList.all (fun c => c.isAlphanum || c = '_') && !text.toList.head?.any Char.isDigit

namespace Settings

/-- The first setting that is out of range, if any. -/
def invalid? (settings : Settings) : Option InvalidSetting :=
  if settings.naming.hintLimit = 0 then some .hintLimit
  else if !startsIdentifier settings.naming.lead then some (.lead settings.naming.lead)
  else if settings.mapping.firstLine = 0 then some .firstLine
  else none

theorem invalid?_eq_none_iff {settings : Settings} :
    settings.invalid? = none ↔ settings.naming.hintLimit ≠ 0 ∧
      startsIdentifier settings.naming.lead = true ∧ settings.mapping.firstLine ≠ 0 := by
  unfold invalid?
  split
  next zero => simp [zero]
  next limit =>
    split
    next refused =>
      rw [Bool.not_eq_true'] at refused
      simp [refused]
    next started =>
      split
      next zero => simp [zero]
      next line => simpa [limit, line] using started

/-- Adds the names that are not there yet, in order. -/
def mergeReserved (names added : List String) : List String :=
  added.foldl (fun names name => if names.contains name then names else names ++ [name]) names

/-- A changed value, unless it is the default. -/
def override [DecidableEq α] (default current changed : α) : α :=
  if changed = default then current else changed

def merge (settings other : Settings) : Settings where
  naming := {
    lead := override ({} : NamingSettings).lead settings.naming.lead other.naming.lead
    reserved := mergeReserved settings.naming.reserved other.naming.reserved
    hintLimit :=
      override ({} : NamingSettings).hintLimit settings.naming.hintLimit other.naming.hintLimit }
  mapping := {
    enabled := settings.mapping.enabled && other.mapping.enabled
    firstLine :=
      override ({} : MappingSettings).firstLine settings.mapping.firstLine other.mapping.firstLine }

end Settings

end Scribe
