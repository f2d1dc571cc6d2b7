import FirmwareVariables.DeviceTree.Node
import FirmwareVariables.Journal
import FirmwareVariables.Termination
import FirmwareVariables.Variable.Record

/-!
# Tagged nodes

A node of a device tree holds a variable record when its `magic` property is the tag that is
looked for. The rest of the record is read from four further properties, checked in a fixed
order; the first check that fails is the fault of the record.
-/

namespace FirmwareVariables

/-- The properties that a record is read from. -/
inductive RecordField where
  | magic
  | name
  | scope
  | attributes
  | data
deriving DecidableEq, Repr

/-- The name of the property that holds a field. -/
def RecordField.property : RecordField → String
  | magic => "magic"
  | name => "name"
  | scope => "guid"
  | attributes => "attributes"
  | data => "data"

inductive RecordFault.Status where
  | invalidParameter
deriving DecidableEq, Repr

def RecordFault.Status.label : RecordFault.Status → String
  | invalidParameter => "InvalidParameter"

/--
Why a tagged node holds no record. Memory that runs out while a record is read is no case of this:
there is always memory for a name and its data here.
-/
inductive RecordFault where
  | missing (field : RecordField)
  | badScope (text : String) (cause : Guid.TextError)
  | badAttributes (size : Nat)
deriving DecidableEq, Repr

namespace RecordFault

def status : RecordFault → RecordFault.Status
  | missing _ => .invalidParameter
  | badScope _ _ => .invalidParameter
  | badAttributes _ => .invalidParameter

def message : RecordFault → String
  | missing field => s!"missing '{field.property}' property"
  | badScope text cause => s!"invalid guid {Quoted.quote text}: {cause.message}"
  | badAttributes size => s!"'attributes' must be a 4-byte cell, got {size} bytes"

end RecordFault

/-- What a node turns out to be. -/
inductive Reading where
  | found (record : VariableRecord)
  | untagged
  | malformed (fault : RecordFault)
deriving DecidableEq, Repr

/-- The octets that mark the nodes of records. -/
structure RecordTag where
  bytes : Bytes
deriving DecidableEq, Repr

namespace RecordTag

def ofText (text : String) : RecordTag :=
  ⟨Utf8.encode text⟩

/-- The text of the tag that is looked for unless another is given. -/
def standardText : String := "u-root-efivar-v1"

def standard : RecordTag :=
  ofText standardText

/-- Whether a value is the tag, or the tag and any one octet, as a final NUL would be. -/
def accepts (tag : RecordTag) (value : Bytes) : Bool :=
  (value.length == tag.bytes.length || value.length == tag.bytes.length + 1) &&
    value.take tag.bytes.length == tag.bytes

def marks (tag : RecordTag) (node : DeviceTree.Node) : Bool :=
  (node.property? RecordField.magic.property).any tag.accepts

end RecordTag

namespace VariableRecord

/-- The value of a field of a record. -/
def fieldOf (node : DeviceTree.Node) (field : RecordField) : Except RecordFault Bytes :=
  match node.property? field.property with
  | some value => .ok value
  | none => .error (.missing field)

/-- The text of an identifier in a value, fitted into a buffer of its length and a NUL. -/
def scopeText (value : Bytes) : Bytes :=
  (Terminated.within (Vector.replicate (Guid.textLength + 1) 0) value).text

def scopeOf (value : Bytes) : Except RecordFault Guid :=
  let text := scopeText value
  match Guid.ofAscii text with
  | .ok scope => .ok scope
  | .error cause => .error (.badScope (Utf8.decodeLossy text) cause)

def attributesOf (value : Bytes) : Except RecordFault Attributes :=
  match Attributes.ofCell? value with
  | some attributes => .ok attributes
  | none => .error (.badAttributes value.length)

/-- The record in the properties of a node. -/
def ofNode (node : DeviceTree.Node) : Except RecordFault VariableRecord := do
  let name ← fieldOf node .name
  let scope ← scopeOf (← fieldOf node .scope)
  let attributes ← attributesOf (← fieldOf node .attributes)
  let data ← fieldOf node .data
  return {
    name := VariableName.ofAscii (Terminated.ofValue name).bytes
    scope
    attributes
    data }

end VariableRecord

namespace RecordTag

/-- What a node is for this tag. -/
def read (tag : RecordTag) (node : DeviceTree.Node) : Reading :=
  if tag.marks node then
    match VariableRecord.ofNode node with
    | .ok record => .found record
    | .error fault => .malformed fault
  else
    .untagged

end RecordTag

/-- What reading a node has to say: each record found is told. -/
def Reading.journal : Reading → Journal
  | .found record => [.debug s!"cached variable {record.toText}"]
  | .untagged => []
  | .malformed _ => []

end FirmwareVariables
