import FirmwareVariables.Guid.Text
import FirmwareVariables.Json

/-!
# Identifiers in JSON

An identifier is a JSON string with its canonical text; any string that is the text of an
identifier is read back.
-/

namespace FirmwareVariables

/-- What a JSON value is, in the words of a message. -/
def Json.kind : Json → String
  | null => "null"
  | boolean value => if value then "boolean `true`" else "boolean `false`"
  | integer value => s!"integer `{value}`"
  | floating value => s!"floating point `{Shortest.ofFloat value}`"
  | text value => "string " ++ Json.quote value
  | list _ => "sequence"
  | object _ => "map"

namespace Guid

/-- Why a JSON value is no identifier. -/
inductive JsonError where
  | notText (kind : String)
  | badText (cause : TextError)
deriving DecidableEq, Repr

def JsonError.message : JsonError → String
  | notText kind => s!"invalid type: {kind}, expected a string"
  | badText cause => cause.message

def toJson (guid : Guid) : Json :=
  .text guid.toText

def ofJson (value : Json) : Except JsonError Guid :=
  match value with
  | .text text =>
      match ofText text with
      | .ok guid => .ok guid
      | .error cause => .error (.badText cause)
  | other => .error (.notText other.kind)

end Guid
end FirmwareVariables
