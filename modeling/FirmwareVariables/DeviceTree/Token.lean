import FirmwareVariables.DeviceTree.Error

/-!
# Reading the structure block

The structure block is a sequence of cells. A marker cell says what follows it: the name
of a node that begins, a property with its size, the offset of its name in the strings
block and its value, the end of a node, nothing, or the end of the block. What follows a
marker is filled up to whole cells.

A cursor stands at a place of the block. One step of it, `Cursor.next`, skips the cells
that say nothing and answers the next token, the end, or a fault. A cursor can be asked
again after a fault: it then reads on behind the marker of the faulty item, or, when only
the filling is missing, behind the end of the block.

The main statement, `Cursor.next_shrinks`, says that every token leaves fewer octets to
read, so every walk comes to an end.
-/

namespace FirmwareVariables
namespace DeviceTree

/-- The largest value of a property that is read, in octets. -/
def maximalPropertySize : Nat := 4194304

/-- What a marker cell announces. -/
inductive Marker where
  | beginNode
  | endNode
  | property
  | nop
  | finish
deriving DecidableEq, Repr

namespace Marker

def code : Marker → Nat
  | beginNode => 1
  | endNode => 2
  | property => 3
  | nop => 4
  | finish => 9

/-- The marker with a number, if there is one. -/
def ofCode? : Nat → Option Marker
  | 1 => some beginNode
  | 2 => some endNode
  | 3 => some property
  | 4 => some nop
  | 9 => some finish
  | _ => none

@[simp] theorem ofCode?_code (marker : Marker) :
    ofCode? marker.code = some marker := by
  cases marker <;> rfl

theorem code_of_ofCode? {code : Nat} {marker : Marker} (h : ofCode? code = some marker) :
    code = marker.code := by
  unfold ofCode? at h
  split at h <;> cases h <;> rfl

end Marker

structure Property where
  name : String
  value : Bytes
deriving DecidableEq, Repr

/-- What a walk meets in the structure block. -/
inductive Token where
  | beginNode (name : String)
  | endNode
  | property (property : Property)
deriving DecidableEq, Repr

/-- The name at an offset of the strings block. -/
def nameAt (strings : Bytes) (offset : Nat) : Except Error String :=
  match strings.drop offset with
  | [] => .error .bounds
  | tail =>
      match Bytes.splitNul? tail with
      | none => .error .unterminatedString
      | some (octets, _) =>
          match Utf8.decode? octets with
          | none => .error .badString
          | some name => .ok name

/-- A place in a structure block. -/
structure Cursor where
  /-- The octets still to be read. -/
  rest : Bytes
  /-- How far from the start of the block the place is. -/
  position : Nat
  /-- How many nodes are open. -/
  depth : Nat
  /-- Whether the end of the block has been read. -/
  finished : Bool
deriving DecidableEq, Repr

/-- A step's answer: a token, nothing more, or a fault. -/
abbrev Answer := Except Error (Option Token)

namespace Cursor

def start (structureBlock : Bytes) : Cursor where
  rest := structureBlock
  position := 0
  depth := 0
  finished := false

/-- Skips the cells at the front that say nothing. -/
def skipNops : Bytes → Nat → Bytes × Nat
  | a :: b :: c :: d :: rest, position =>
      if Bytes.cell a b c d = Marker.nop.code then
        skipNops rest (position + 4)
      else
        (a :: b :: c :: d :: rest, position)
  | rest, position => (rest, position)

/-- The cursor before the next cell that says something. -/
def atMarker (cursor : Cursor) : Cursor :=
  let (rest, position) := skipNops cursor.rest cursor.position
  { cursor with rest, position }

/--
The cursor after an item that ends at `stop` and leaves `rest`, moved on to a whole cell.
The second component says whether the block has octets enough to fill the cell; if not, the
cursor stands behind the end.
-/
def afterItem (cursor : Cursor) (stop : Nat) (rest : Bytes) : Cursor × Bool :=
  match Bytes.split? (Bytes.padding stop) rest with
  | some (_, rest) => ({ cursor with rest, position := stop + Bytes.padding stop }, true)
  | none => ({ cursor with rest := [], position := stop + Bytes.padding stop }, false)

/-- The beginning of a node, behind its marker. -/
def readBegin (cursor : Cursor) : Answer × Cursor :=
  match Bytes.splitNul? cursor.rest with
  | none => (.error .unterminatedString, cursor)
  | some (octets, rest) =>
      match Utf8.decode? octets with
      | none => (.error .badString, cursor)
      | some name =>
          match cursor.afterItem (cursor.position + (octets.length + 1)) rest with
          | (after, true) =>
              (.ok (some (.beginNode name)), { after with depth := after.depth + 1 })
          | (after, false) => (.error .truncated, after)

/-- A property, behind its marker. -/
def readProperty (strings : Bytes) (cursor : Cursor) : Answer × Cursor :=
  match Bytes.takeCell? cursor.rest with
  | none => (.error .truncated, cursor)
  | some (size, rest) =>
      match Bytes.takeCell? rest with
      | none => (.error .truncated, cursor)
      | some (nameOffset, rest) =>
          if maximalPropertySize < size then
            (.error (.propertyTooLarge size), cursor)
          else
            match Bytes.split? size rest with
            | none => (.error .truncated, cursor)
            | some (value, rest) =>
                match nameAt strings nameOffset with
                | .error fault => (.error fault, cursor)
                | .ok name =>
                    match cursor.afterItem (cursor.position + (8 + size)) rest with
                    | (after, true) => (.ok (some (.property ⟨name, value⟩)), after)
                    | (after, false) => (.error .truncated, after)

/-- The end of a node, behind its marker. -/
def readEnd (cursor : Cursor) : Answer × Cursor :=
  if cursor.depth = 0 then
    (.error .unexpectedEnd, cursor)
  else
    (.ok (some .endNode), { cursor with depth := cursor.depth - 1 })

/-- The end of the block, behind its marker. -/
def readFinish (cursor : Cursor) : Answer × Cursor :=
  if cursor.depth = 0 then
    (.ok none, { cursor with finished := true })
  else
    (.error .unexpectedEnd, cursor)

/-- What follows a marker cell. -/
def readItem (strings : Bytes) (code : Nat) (cursor : Cursor) : Answer × Cursor :=
  match Marker.ofCode? code with
  | some .beginNode => cursor.readBegin
  | some .endNode => cursor.readEnd
  | some .property => cursor.readProperty strings
  | some .finish => cursor.readFinish
  | some .nop => (.error (.invalidToken code), cursor)
  | none => (.error (.invalidToken code), cursor)

/-- One step: the answer and the cursor that it leaves. -/
def next (strings : Bytes) (cursor : Cursor) : Answer × Cursor :=
  if cursor.finished then
    (.ok none, cursor)
  else
    let marker := cursor.atMarker
    match Bytes.takeCell? marker.rest with
    | none => (.error .truncated, marker)
    | some (code, rest) =>
        readItem strings code { marker with rest, position := marker.position + 4 }

theorem length_skipNops_le (rest : Bytes) (position : Nat) :
    (skipNops rest position).1.length ≤ rest.length := by
  fun_induction skipNops rest position with
  | case1 a b c d rest position hnop ih =>
      simp only [List.length_cons]
      omega
  | case2 => simp
  | case3 => simp

theorem length_atMarker_le (cursor : Cursor) :
    cursor.atMarker.rest.length ≤ cursor.rest.length :=
  length_skipNops_le cursor.rest cursor.position

theorem length_afterItem_le (cursor : Cursor) (stop : Nat) (rest : Bytes) :
    (cursor.afterItem stop rest).1.rest.length ≤ rest.length := by
  unfold afterItem
  split
  · rename_i hsplit
    obtain ⟨-, rfl⟩ := Bytes.split?_eq_some_iff.1 hsplit
    simp
  · simp

theorem length_readBegin_le (cursor : Cursor) :
    cursor.readBegin.2.rest.length ≤ cursor.rest.length := by
  unfold readBegin
  split
  · simp
  · rename_i octets rest hsplit
    obtain ⟨-, hrest⟩ := Bytes.splitNul?_eq_some_iff.1 hsplit
    have hle := length_afterItem_le cursor (cursor.position + (octets.length + 1)) rest
    split
    · simp
    · split <;>
      · rename_i hafter
        rw [hafter] at hle
        simp only [hrest, List.length_append, List.length_cons]
        simp only at hle
        omega

theorem length_readProperty_le (strings : Bytes) (cursor : Cursor) :
    (cursor.readProperty strings).2.rest.length ≤ cursor.rest.length := by
  unfold readProperty
  split
  · simp
  · rename_i size rest hsize
    have hfirst := Bytes.length_of_takeCell? hsize
    split
    · simp
    · rename_i nameOffset rest hoffset
      have hsecond := Bytes.length_of_takeCell? hoffset
      split
      · simp
      · split
        · simp
        · rename_i value rest hsplit
          obtain ⟨-, rfl⟩ := Bytes.split?_eq_some_iff.1 hsplit
          simp only [List.length_append] at hsecond
          have hle := length_afterItem_le cursor (cursor.position + (8 + size)) rest
          split
          · simp
          · split <;>
            · rename_i hafter
              rw [hafter] at hle
              simp only at hle ⊢
              omega

theorem length_readItem_le (strings : Bytes) (code : Nat) (cursor : Cursor) :
    (readItem strings code cursor).2.rest.length ≤ cursor.rest.length := by
  unfold readItem
  split
  · exact length_readBegin_le cursor
  · unfold readEnd
    split <;> simp
  · exact length_readProperty_le strings cursor
  · unfold readFinish
    split <;> simp
  · simp
  · simp

/-- Every token leaves fewer octets to read. -/
theorem next_shrinks {strings : Bytes} {cursor after : Cursor} {token : Token}
    (h : cursor.next strings = (.ok (some token), after)) :
    after.rest.length < cursor.rest.length := by
  unfold next at h
  split at h
  · simp at h
  · simp only at h
    split at h
    · simp at h
    · rename_i code rest hcell
      have hcellLength := Bytes.length_of_takeCell? hcell
      have hmarker := length_atMarker_le cursor
      have hitem := length_readItem_le strings code
        { cursor.atMarker with rest, position := cursor.atMarker.position + 4 }
      rw [h] at hitem
      simp only at hitem
      omega

end Cursor
end DeviceTree
end FirmwareVariables
