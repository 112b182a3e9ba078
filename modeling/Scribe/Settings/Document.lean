import Scribe.Settings.Encoding
import Scribe.Toml.Document

/-!
Settings as TOML documents, one table for each group of settings.
-/

namespace Scribe.Settings

/-- TOML integers are signed, so not every limit can be written. -/
def isWritable (settings : Settings) : Bool :=
  settings.naming.hintLimit.toNat < 1 <<< 63

/-- A list of two items or more has a line for each. -/
def writtenList : List String → String
  | [] => "[]"
  | [item] => "[" ++ Toml.written item ++ "]"
  | items => "[\n" ++ String.join (items.map fun item => "    " ++ Toml.written item ++ ",\n") ++ "]"

def document (settings : Settings) : String :=
  "[naming]\n" ++
  "prefix = " ++ Toml.written settings.naming.lead ++ "\n" ++
  "reserved = " ++ writtenList settings.naming.reserved ++ "\n" ++
  "max_hint_length = " ++ toString settings.naming.hintLimit.toNat ++ "\n" ++
  "\n" ++
  "[mapping]\n" ++
  "enabled = " ++ (if settings.mapping.enabled then "true" else "false") ++ "\n" ++
  "first_output_line = " ++ toString settings.mapping.firstLine.toNat ++ "\n"

def toToml? (settings : Settings) : Option String :=
  if settings.isWritable then some settings.document else none

/-- No setting is nested deeper than this. -/
def documentRoom : Nat := 3

def ofToml? (text : String) : Option Settings :=
  (Toml.parse? text).bind (Settings.read .ignored documentRoom)

end Scribe.Settings
