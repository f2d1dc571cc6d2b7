import FirmwareVariables.DeviceTree.Token
import FirmwareVariables.DeviceTree.Blob

/-!
# Nodes of a device tree

A walk runs a cursor until the structure block ends or a fault stops it. Its nodes are the
places where one begins, in the order of the block. The properties of a node are read where
the node begins and go as far as one property follows another; a fault in them is their last
item.

Both lists are given item by item. `NodeReader` and `PropertyReader` keep the cursor and whether
they are done, and a reader that is done has nothing more to give.
-/

namespace FirmwareVariables
namespace DeviceTree

/-- A walk: each token with the cursor behind it, and the fault that stopped the walk, if any. -/
structure Walk where
  steps : List (Token × Cursor)
  fault : Option Error
deriving DecidableEq, Repr

/-- The walk from a cursor to the end of the block or the first fault. -/
def Cursor.walk (strings : Bytes) (cursor : Cursor) : Walk :=
  match _hnext : cursor.next strings with
  | (.ok (some token), after) =>
      let later := after.walk strings
      ⟨(token, after) :: later.steps, later.fault⟩
  | (.ok none, _) => ⟨[], none⟩
  | (.error fault, _) => ⟨[], some fault⟩
termination_by cursor.rest.length
decreasing_by exact Cursor.next_shrinks _hnext

/-- Properties in a row, and the fault that stopped the reading of them, if any. -/
structure PropertyRun where
  properties : List Property
  fault : Option Error
deriving DecidableEq, Repr

/-- The properties that follow a cursor before anything else does. -/
def Cursor.properties (strings : Bytes) (cursor : Cursor) : PropertyRun :=
  match Bytes.takeCell? cursor.atMarker.rest with
  | none => ⟨[], some .truncated⟩
  | some (code, _) =>
      if code = Marker.property.code then
        match _hnext : cursor.next strings with
        | (.ok (some (.property property)), after) =>
            let later := after.properties strings
            ⟨property :: later.properties, later.fault⟩
        | (.ok _, _) => ⟨[], none⟩
        | (.error fault, _) => ⟨[], some fault⟩
      else
        ⟨[], none⟩
termination_by cursor.rest.length
decreasing_by exact Cursor.next_shrinks _hnext

/-- A node, as a walk finds it. -/
structure Node where
  name : String
  /-- How many nodes are open around it. -/
  depth : Nat
  /-- Where its contents begin in the structure block. -/
  offset : Nat
  /-- The structure block from there on. -/
  contents : Bytes
  /-- The strings block, which holds the names of its properties. -/
  strings : Bytes
deriving DecidableEq, Repr

namespace Node

/-- The node that a step of a walk begins, if it begins one. -/
def ofStep? (strings : Bytes) : Token × Cursor → Option Node
  | (.beginNode name, after) =>
      some {
        name
        depth := after.depth - 1
        offset := after.position
        contents := after.rest
        strings }
  | (.endNode, _) => none
  | (.property _, _) => none

/-- The cursor where the node's contents begin. It takes the node for the only open one. -/
def cursor (node : Node) : Cursor where
  rest := node.contents
  position := node.offset
  depth := 1
  finished := false

/-- The properties at the start of the node's contents. -/
def properties (node : Node) : PropertyRun :=
  node.cursor.properties node.strings

/-- The value of the first property with a name, if one is found before any fault. -/
def property? (node : Node) (name : String) : Option Bytes :=
  (node.properties.properties.find? fun property => property.name == name).map (·.value)

end Node

/-- A reader of properties: where it is, and whether it has come to the end of its list. -/
structure PropertyReader where
  cursor : Cursor
  done : Bool
deriving DecidableEq, Repr

namespace PropertyReader

/-- The reader before the first property of a node. -/
def ofNode (node : Node) : PropertyReader :=
  ⟨node.cursor, false⟩

/-- The next property, or the fault that ends the list; nothing behind its end or its fault. -/
def next (strings : Bytes) (reader : PropertyReader) :
    Option (Except Error Property) × PropertyReader :=
  if reader.done then
    (none, reader)
  else
    match Bytes.takeCell? reader.cursor.atMarker.rest with
    | none => (some (.error .truncated), ⟨reader.cursor, true⟩)
    | some (code, _) =>
        if code = Marker.property.code then
          match reader.cursor.next strings with
          | (.ok (some (.property property)), after) => (some (.ok property), ⟨after, false⟩)
          | (.ok _, after) => (none, ⟨after, true⟩)
          | (.error fault, after) => (some (.error fault), ⟨after, true⟩)
        else
          (none, ⟨reader.cursor, true⟩)

end PropertyReader

/-- A reader of nodes: where it is, and whether it has come to the end of its walk. -/
structure NodeReader where
  cursor : Cursor
  done : Bool
deriving DecidableEq, Repr

namespace NodeReader

def start (structureBlock : Bytes) : NodeReader :=
  ⟨.start structureBlock, false⟩

/-- The next node, or the fault of the walk; nothing behind its end or its fault. -/
def next (strings : Bytes) (reader : NodeReader) : Option (Except Error Node) × NodeReader :=
  if reader.done then
    (none, reader)
  else
    match _hnext : reader.cursor.next strings with
    | (.ok (some token), after) =>
        match Node.ofStep? strings (token, after) with
        | some node => (some (.ok node), ⟨after, false⟩)
        | none => next strings ⟨after, false⟩
    | (.ok none, after) => (none, ⟨after, true⟩)
    | (.error fault, after) => (some (.error fault), ⟨after, true⟩)
termination_by reader.cursor.rest.length
decreasing_by exact Cursor.next_shrinks _hnext

end NodeReader

/-- The nodes of a walk in order, and the fault that stopped the walk, if any. -/
structure NodeWalk where
  nodes : List Node
  fault : Option Error
deriving DecidableEq, Repr

namespace Blob

def walk (blob : Blob) : Walk :=
  (Cursor.start blob.structureBlock).walk blob.stringsBlock

def nodes (blob : Blob) : NodeWalk :=
  ⟨blob.walk.steps.filterMap (Node.ofStep? blob.stringsBlock), blob.walk.fault⟩

end Blob
end DeviceTree
end FirmwareVariables
