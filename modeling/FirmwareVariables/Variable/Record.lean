import FirmwareVariables.Guid.Text
import FirmwareVariables.Variable.Attributes
import FirmwareVariables.Variable.Name

/-!
# Variable records

What is known of one variable: its name, the scope of the name, its attributes and its
data. A record has a line of text for messages and a summary for reports.
-/

namespace FirmwareVariables

/-- A firmware variable. -/
structure VariableRecord where
  name : VariableName
  scope : Guid
  attributes : Attributes
  data : Bytes
deriving DecidableEq, Repr

/-- A record as reports show it, with the data as hexadecimal text. -/
structure VariableRecord.Summary where
  name : String
  scope : Guid
  attributes : UInt32
  size : Nat
  data : String
deriving DecidableEq, Repr

/-- The line that messages show of a variable. -/
def variableLine (name : String) (scope : Guid) (attributes : UInt32) (size : Nat) : String :=
  s!"{name} ({scope.toText}) attr=0x{Hex.shortest attributes.toNat} size={size}"

namespace VariableRecord

/-- Name and scope, which together tell variables apart. -/
def key (record : VariableRecord) : VariableName × Guid :=
  (record.name, record.scope)

def toText (record : VariableRecord) : String :=
  variableLine record.name.toText record.scope record.attributes.bits record.data.length

def summary (record : VariableRecord) : VariableRecord.Summary where
  name := record.name.toText
  scope := record.scope
  attributes := record.attributes.bits
  size := record.data.length
  data := Hex.ofBytes record.data

end VariableRecord
end FirmwareVariables
