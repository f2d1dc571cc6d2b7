import FirmwareVariables.Proofs.DeviceTree.Listing

/-!
# Whose property it is

A property belongs to the innermost node that is open where the walk meets it, so a node can have
properties in front of its children, between them and behind them. Its own list is shorter: it is
read from the beginning of the node and ends where the first child begins.

`Blob.lists_properties_before_children` says what is in the list and what is left out of it. The
list is not all that the node owns, also where the walk ends without a fault:
`Blob.unlisted_property` is a tree that shows it.
-/

namespace FirmwareVariables
namespace DeviceTree

/-- The property that a step of a walk meets, if it leaves `level` nodes open. -/
def propertyAt? (level : Nat) : Token × Cursor → Option Property
  | (.property property, after) => if after.depth = level then some property else none
  | (.beginNode _, _) => none
  | (.endNode, _) => none

/--
The properties that belong to a node, among the steps of a walk behind the beginning of the node.
The node stays open while more nodes are open than there are around it, and it is the innermost of
them while there is one more.
-/
def Node.owned (node : Node) (behind : List (Token × Cursor)) : List Property :=
  (behind.takeWhile fun step => node.depth < step.2.depth).filterMap
    (propertyAt? (node.depth + 1))

namespace Node

variable {node : Node} {after : Cursor} {behind : List (Token × Cursor)}

theorem owned_nil (node : Node) :
    node.owned [] = [] := by
  rfl

theorem owned_property
    {property : Property}
    (hdepth : after.depth = node.depth + 1) :
    node.owned ((.property property, after) :: behind) = property :: node.owned behind := by
  simp [owned, propertyAt?, hdepth]

/-- Behind its end nothing belongs to a node. -/
theorem owned_endNode
    (hdepth : after.depth = node.depth) :
    node.owned ((.endNode, after) :: behind) = [] := by
  simp [owned, hdepth]

end Node

namespace Cursor

variable {strings : Bytes} {cursor : Cursor}

/--
What belongs to the node that a cursor is directly inside of: the properties that the walk meets
first, and more of them only if a child begins behind these.
-/
theorem owned_walk
    {node : Node}
    (hopen : cursor.finished = false)
    (haligned : cursor.position % 4 = 0)
    (hdepth : cursor.depth = node.depth + 1) :
    ∃ listed inside,
      (cursor.walk strings).steps = listed ++ inside ∧
      listed.map Prod.fst = (cursor.properties strings).properties.map .property ∧
      node.owned (cursor.walk strings).steps =
        (cursor.properties strings).properties ++ node.owned inside ∧
      (node.owned inside ≠ [] →
        ∃ child begun more, inside = (.beginNode child, begun) :: more) := by
  simp only [properties_eq_leading]
  fun_induction Cursor.walk strings cursor with
  | case1 cursor token after hnext later ih =>
      obtain ⟨read, hread⟩ := reads_of_next hopen haligned hnext
      have hnested := hread.nested
      rw [hdepth] at hnested
      cases token with
      | property property =>
          have hafter : after.depth = node.depth + 1 := (Option.some.inj hnested).symm
          obtain ⟨listed, inside, hsteps, htokens, howned, hchild⟩ :=
            ih hread.unfinished (hread.aligned haligned) hafter
          refine ⟨(.property property, after) :: listed, inside, ?_, ?_, ?_, hchild⟩
          · exact congrArg (List.cons _) hsteps
          · exact congrArg (List.cons _) htokens
          · rw [Node.owned_property hafter, howned]
            rfl
      | beginNode name => exact ⟨[], _, rfl, rfl, rfl, fun _ => ⟨name, after, _, rfl⟩⟩
      | endNode =>
          have hafter : after.depth = node.depth := (Option.some.inj hnested).symm
          exact ⟨[], _, rfl, rfl, rfl, fun hmore => absurd (Node.owned_endNode hafter) hmore⟩
  | case2 => exact ⟨[], [], rfl, rfl, rfl, fun hmore => absurd node.owned_nil hmore⟩
  | case3 => exact ⟨[], [], rfl, rfl, rfl, fun hmore => absurd node.owned_nil hmore⟩

end Cursor

namespace Blob

variable {blob : Blob} {before behind : List (Token × Cursor)} {after : Cursor} {name : String}
variable {node : Node}

/--
The list of a node has the properties that stand in front of its children, each in its place.
What else belongs to the node stands behind the beginning of a child and is not in the list, so
the list has all that belongs to the node exactly if there is no such property.
-/
theorem lists_properties_before_children
    (hsteps : blob.walk.steps = before ++ (.beginNode name, after) :: behind)
    (hnode : Node.ofStep? blob.stringsBlock (.beginNode name, after) = some node) :
    ∃ listed inside,
      behind = listed ++ inside ∧
      listed.map Prod.fst = node.properties.properties.map .property ∧
      node.owned behind = node.properties.properties ++ node.owned inside ∧
      (node.properties.properties = node.owned behind ↔ node.owned inside = []) ∧
      (node.owned inside ≠ [] →
        ∃ child begun more, inside = (.beginNode child, begun) :: more) := by
  obtain ⟨⟨place, hopen, haligned, hnext⟩, hwalk⟩ := Cursor.walk_behind_step rfl rfl hsteps
  obtain ⟨read, hread⟩ := Cursor.reads_of_next hopen haligned hnext
  have hdepth : after.depth = node.depth + 1 := by
    have hnested : place.depth + 1 = after.depth := Option.some.inj hread.nested
    cases hnode
    show after.depth = after.depth - 1 + 1
    omega
  obtain ⟨listed, inside, hsplit, htokens, howned, hchild⟩ :=
    Cursor.owned_walk hread.unfinished (hread.aligned haligned) hdepth
  rw [← Cursor.properties_of_begin hnext hnode] at htokens howned
  rw [hwalk] at hsplit howned
  refine ⟨listed, inside, hsplit, htokens, howned, ?_, hchild⟩
  rw [howned]
  exact List.self_eq_append_right

/-- A node with a child and a property behind it. -/
def trailingSteps : List WriteStep :=
  [.beginNode "", .beginNode "a", .endNode, .property "x" [1]]

def trailing : Blob :=
  let written := Writer.empty.takeAll trailingSteps
  let block := written.1 ++ written.2.closing
  ⟨headerOver block written.2.stringsBlock, write trailingSteps, block, written.2.stringsBlock⟩

def trailingContents : Cursor :=
  ⟨trailing.structureBlock.drop 8, 8, 1, false⟩

def trailingRoot : Node :=
  ⟨"", 0, 8, trailing.structureBlock.drop 8, trailing.stringsBlock⟩

theorem steps_trailing :
    trailing.walk.steps = [] ++ (.beginNode "", trailingContents) :: trailing.walk.steps.tail := by
  decide +kernel

theorem lists_properties_before_children_trailing :
    ∃ listed inside,
      trailing.walk.steps = [] ++ (.beginNode "", trailingContents) :: (listed ++ inside) ∧
      Node.ofStep? trailing.stringsBlock (.beginNode "", trailingContents) = some trailingRoot ∧
      trailingRoot.properties.properties = [] ∧
      trailingRoot.owned (listed ++ inside) = [] ++ trailingRoot.owned inside ∧
      ∃ child begun more, inside = (.beginNode child, begun) :: more := by
  have hlist : trailingRoot.properties.properties = [] := by
    decide +kernel
  have hroot : Node.ofStep? trailing.stringsBlock (.beginNode "", trailingContents) =
      some trailingRoot := rfl
  have howned : trailingRoot.owned trailing.walk.steps.tail ≠ [] := by
    decide +kernel
  obtain ⟨listed, inside, hbehind, -, hsplit, -, hchild⟩ :=
    lists_properties_before_children steps_trailing hroot
  rw [hlist] at hsplit
  refine ⟨listed, inside, ?_, rfl, hlist, ?_, ?_⟩
  · rw [← hbehind]
    exact steps_trailing
  · rw [← hbehind, hsplit]
  · exact hchild (by rwa [hsplit] at howned)

/-- The blob is accepted and read to its end, and the property behind the child is nowhere. -/
theorem unlisted_property :
    Blob.ofBytes (write trailingSteps) = .ok trailing ∧
      trailing.nodes.fault = none ∧
      trailing.nodes.nodes.map Node.properties = [⟨[], none⟩, ⟨[], none⟩] ∧
      ∃ behind,
        trailing.walk.steps = [] ++ (.beginNode "", trailingContents) :: behind ∧
        Node.ofStep? trailing.stringsBlock (.beginNode "", trailingContents) =
          some trailingRoot ∧
        trailingRoot.owned behind = [⟨"x", [1]⟩] := by
  have hshort : (write trailingSteps).length < 4294967296 := by
    decide +kernel
  refine ⟨ofBytes_assemble hshort, ?_, ?_, trailing.walk.steps.tail, steps_trailing, rfl, ?_⟩
  · decide +kernel
  · decide +kernel
  · decide +kernel

end Blob
end DeviceTree
end FirmwareVariables
