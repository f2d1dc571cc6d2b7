import FirmwareVariables.Text.Quoted
import FirmwareVariables.Text.Utf16

/-!
# Variable names

A name keeps UTF-16 units with a NUL unit at their end. It is made from a text or from octets of
which each is widened to a unit, in both cases up to the first NUL, and both put the NUL at the
end themselves; what is asked of a name relies on it. Names are ordered by all that they keep.

That there may be no memory left for the units is left out.
-/

namespace FirmwareVariables

/-- The name of a firmware variable: its units and the NUL that ends them. -/
structure VariableName where
  unitsWithNul : List UInt16
deriving DecidableEq, Repr

namespace VariableName

def ofText (text : String) : VariableName :=
  ⟨(Utf16.encode text.toList).takeWhile (· ≠ 0) ++ [0]⟩

/-- The name that octets give. There is always memory for it here. -/
def ofAscii (octets : Bytes) : VariableName :=
  ⟨(Bytes.beforeNul octets).map UInt8.toUInt16 ++ [0]⟩

/-- How many units stand before the last one, the NUL. -/
def length (name : VariableName) : Nat :=
  name.unitsWithNul.length - 1

/-- The units without the NUL that ends them. -/
def units (name : VariableName) : List UInt16 :=
  name.unitsWithNul.take name.length

def isEmpty (name : VariableName) : Bool :=
  name.length == 0

def byteSize (name : VariableName) : Nat :=
  name.unitsWithNul.length * 2

def toText (name : VariableName) : String :=
  String.ofList (Utf16.decode name.units)

def toQuoted (name : VariableName) : String :=
  Quoted.quote name.toText

instance : Ord VariableName where
  compare m n := compare (m.unitsWithNul.map UInt16.toNat) (n.unitsWithNul.map UInt16.toNat)

/-- The names in ascending order; equal ones keep their places. -/
def sort (names : List VariableName) : List VariableName :=
  names.mergeSort fun m n => (compare m n).isLE

end VariableName
end FirmwareVariables
