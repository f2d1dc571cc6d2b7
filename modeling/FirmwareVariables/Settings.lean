import FirmwareVariables.Files
import FirmwareVariables.Journal
import FirmwareVariables.Text.Quoted
import FirmwareVariables.Toml.Document
import FirmwareVariables.Variable.Tag

/-!
# Settings

Whether variables are restored at all, and the tag of their records. Settings come from a
document of which every key is known; what the document does not say keeps its standard
value. The active settings are those of the file that the environment names, or the standard
ones if it names none or the file is no good.
-/

namespace FirmwareVariables

/-- The settings of the restoration. -/
structure Settings where
  enabled : Bool
  magic : String
deriving DecidableEq, Repr

/--
What is wrong with a document. Where in it the fault is, and what could stand there instead, is
not kept.
-/
inductive DocumentFault where
  | malformed
  | unknownKey (key : String)
  | wrongType (key : String) (found : Toml.Value)
deriving DecidableEq, Repr

/-- How a value of the wrong type is shown. -/
def Toml.Value.toText : Toml.Value → String
  | .boolean value => s!"boolean `{value}`"
  | .text value => s!"string {Quoted.quote value}"

def DocumentFault.message : DocumentFault → String
  | malformed => "TOML parse error"
  | unknownKey key => s!"unknown field `{key}`, expected `enabled` or `magic`"
  | wrongType key found =>
      let expected := if key = "enabled" then "a boolean" else "a string"
      s!"invalid type: {found.toText}, expected {expected}"

/-- Why there are no settings. -/
inductive SettingsError where
  | unreadable (path : Bytes) (fault : ReadFault)
  | invalid (cause : DocumentFault)
  | emptyMagic
deriving DecidableEq, Repr

namespace SettingsError

def message : SettingsError → String
  | unreadable path fault => s!"failed to read {Utf8.decodeLossy path}: {fault.message}"
  | invalid cause => s!"invalid configuration: {cause.message}"
  | emptyMagic => "record magic must not be empty"

/-- The messages of what caused an error, from the nearest cause on. -/
def causes : SettingsError → List String
  | unreadable _ fault => [fault.message]
  | invalid cause => [cause.message]
  | emptyMagic => []

end SettingsError

namespace Settings

/-- The environment variable that names the file of the active settings. -/
def environmentVariable : String := "EFIVAR_RESTORE_CONFIG"

/-- The settings where nothing is said. -/
def standard : Settings :=
  ⟨true, RecordTag.standardText⟩

/-- The settings with one of them assigned, which has to be of its type. -/
def assign (settings : Settings) : String × Toml.Value → Except DocumentFault Settings
  | ("enabled", .boolean enabled) => .ok { settings with enabled }
  | ("magic", .text magic) => .ok { settings with magic }
  | (key, value) =>
      if key = "enabled" ∨ key = "magic" then
        .error (.wrongType key value)
      else
        .error (.unknownKey key)

def ofToml (document : String) : Except SettingsError Settings :=
  match Toml.read? document with
  | none => .error (.invalid .malformed)
  | some entries =>
      match entries.foldlM assign standard with
      | .error cause => .error (.invalid cause)
      | .ok settings => if settings.magic.isEmpty then .error .emptyMagic else .ok settings

def load (read : FileReader) (path : Bytes) : Except SettingsError Settings :=
  match read.readText path with
  | .error fault => .error (.unreadable path fault)
  | .ok document => ofToml document

/-- The active settings, given the path in the environment, and what is said about them. -/
def active (read : FileReader) (path : Option Bytes) : Settings × Journal :=
  match path with
  | none => (standard, [])
  | some path =>
      match load read path with
      | .ok settings => (settings, [])
      | .error error =>
          (standard, [.warning s!"using default restore config: {error.message}"])

def tag (settings : Settings) : RecordTag :=
  RecordTag.ofText settings.magic

end Settings
end FirmwareVariables
