import Scribe.Files.Disk
import Scribe.Settings.Document

/-!
Settings files. Loading checks the settings, saving does not; saving makes the directories it needs,
but only once the document is ready to be written.
-/

namespace Scribe

inductive SettingsFileError where
  | io (path : String)
  | parse (path : String)
  | serialize
  | invalid (cause : InvalidSetting)
deriving DecidableEq, Repr

namespace Settings

def load (disk : Disk) (path : String) : Except SettingsFileError Settings :=
  match (disk.read? path).bind String.fromUTF8? with
  | none => .error (.io path)
  | some text =>
    match ofToml? text with
    | none => .error (.parse path)
    | some settings =>
      match settings.invalid? with
      | some cause => .error (.invalid cause)
      | none => .ok settings

/-- Makes the directory around a file. -/
def prepare (disk : Disk) (path : String) : Except String Unit × Disk :=
  match FilePath.parent? path with
  | none => (.ok (), disk)
  | some parent =>
    match disk.makeDirectories parent with
    | (true, disk) => (.ok (), disk)
    | (false, disk) => (.error parent, disk)

def save (settings : Settings) (path : String) : EStateM SettingsFileError Disk Unit :=
  fun disk =>
    match settings.toToml? with
    | none => .error .serialize disk
    | some text =>
      match prepare disk path with
      | (.error parent, disk) => .error (.io parent) disk
      | (.ok _, disk) =>
        match disk.write? path text.toUTF8 with
        | none => .error (.io path) disk
        | some disk => .ok () disk

end Settings

end Scribe
