import FirmwareVariables.DeviceTree.Token
import FirmwareVariables.DeviceTree.Blob

/-!
# Writing device trees

A tree is written in steps. Each of them adds to the structure block; the name of a property
goes into the strings block at its first use, and later properties of the same name refer to it.
Behind the last step the nodes still open are closed, and the header is put in front.
-/

namespace FirmwareVariables
namespace DeviceTree

/--
Where the first of the pieces begins that is a name, if the first of all begins at `offset`. A
piece that begins at the end of the block is none: nothing stands there.
-/
def offsetOf? (name : Bytes) (size : Nat) : List Bytes → Nat → Option Nat
  | [], _ => none
  | piece :: pieces, offset =>
      if piece = name ∧ offset < size then
        some offset
      else
        offsetOf? name size pieces (offset + piece.length + 1)

/-- One step of a tree. -/
inductive WriteStep where
  | beginNode (name : String)
  | endNode
  | property (name : String) (value : Bytes)
  | text (name : String) (value : String)
  | number (name : String) (value : Nat)
  | nop
deriving DecidableEq, Repr

/-- What a writer knows between two steps: the names so far, and how many nodes are open. -/
structure Writer where
  stringsBlock : Bytes
  openNodes : Nat
deriving DecidableEq, Repr

namespace Writer

def empty : Writer :=
  ⟨[], 0⟩

/-- The offset of a name in the strings block, and the block with the name in it. -/
def placeName (name : String) (strings : Bytes) : Nat × Bytes :=
  let octets := Utf8.encode name
  match offsetOf? octets strings.length (Bytes.split 0 strings) 0 with
  | some offset => (offset, strings)
  | none => (strings.length, strings ++ octets ++ [0])

/-- Writes a property, and keeps its name. -/
def property (name : String) (value : Bytes) (writer : Writer) : Bytes × Writer :=
  let (offset, stringsBlock) := placeName name writer.stringsBlock
  (Bytes.ofCell Marker.property.code ++ Bytes.ofCell value.length ++ Bytes.ofCell offset ++
    Bytes.padded value, { writer with stringsBlock })

/--
What one step writes into the structure block, and the writer behind it. A text gains its NUL,
and a number is written as a cell.
-/
def take (writer : Writer) : WriteStep → Bytes × Writer
  | .beginNode name =>
      (Bytes.ofCell Marker.beginNode.code ++ Bytes.padded (Utf8.encode name ++ [0]),
        { writer with openNodes := writer.openNodes + 1 })
  | .endNode =>
      (Bytes.ofCell Marker.endNode.code, { writer with openNodes := writer.openNodes - 1 })
  | .property name value => writer.property name value
  | .text name value => writer.property name (Utf8.encode value ++ [0])
  | .number name value => writer.property name (Bytes.ofCell value)
  | .nop => (Bytes.ofCell Marker.nop.code, writer)

/-- What steps write into the structure block one after the other, and the writer behind them. -/
def takeAll (writer : Writer) : List WriteStep → Bytes × Writer
  | [] => ([], writer)
  | step :: steps =>
      let (written, after) := writer.take step
      let (more, last) := takeAll after steps
      (written ++ more, last)

/-- The ends of the nodes still open, and the end of the block. -/
def closing (writer : Writer) : Bytes :=
  (List.replicate writer.openNodes (Bytes.ofCell Marker.endNode.code)).flatten ++
    Bytes.ofCell Marker.finish.code

end Writer

/-- How many octets the empty list of reserved memory takes. -/
def reservationMapSize : Nat := 16

/-- The blob with these two blocks, of which the strings block comes last. -/
def assemble (structureBlock stringsBlock : Bytes) : Bytes :=
  let structureOffset := headerSize + reservationMapSize
  let stringsOffset := structureOffset + structureBlock.length
  let cells := [
    magicNumber,
    stringsOffset + stringsBlock.length,
    structureOffset,
    stringsOffset,
    headerSize,
    formatVersion,
    formatVersion - 1,
    0,
    stringsBlock.length,
    structureBlock.length]
  cells.flatMap Bytes.ofCell ++ List.replicate reservationMapSize 0 ++ structureBlock ++
    stringsBlock

def write (steps : List WriteStep) : Bytes :=
  let (written, writer) := Writer.empty.takeAll steps
  assemble (written ++ writer.closing) writer.stringsBlock

end DeviceTree
end FirmwareVariables
