import FirmwareVariables.Proofs.DeviceTree.Grammar

/-!
# Outlines of nodes

The properties of a node are read by a cursor of their own, which knows nothing of the nodes
around it. The main statement, `Blob.outline_nodes`, says that they are nevertheless the
properties that the walk meets directly behind the beginning of the node, so that the nodes of a
blob, as far as readers of properties can see, are a function of the tokens of its walk.
-/

namespace FirmwareVariables
namespace DeviceTree

/-- What readers of properties see of a node. -/
structure Outline where
  name : String
  properties : List Property
deriving DecidableEq, Repr

/-- The properties at the front of tokens. -/
def leading : List Token → List Property
  | [] => []
  | .property property :: tokens => property :: leading tokens
  | .beginNode _ :: _ => []
  | .endNode :: _ => []

/-- The nodes that begin in tokens, each with the properties directly behind its beginning. -/
def outlines : List Token → List Outline
  | [] => []
  | .property _ :: tokens => outlines tokens
  | .beginNode name :: tokens => ⟨name, leading tokens⟩ :: outlines tokens
  | .endNode :: tokens => outlines tokens

def Node.outline (node : Node) : Outline :=
  ⟨node.name, node.properties.properties⟩

namespace Cursor

variable {strings : Bytes} {cursor after : Cursor}

/-- Where an item ends does not depend on the nodes that are open. -/
theorem afterItem_with
    (cursor : Cursor) (depth : Nat) (finished : Bool) (stop : Nat) (rest : Bytes) :
    { cursor with depth, finished }.afterItem stop rest =
      ({ (cursor.afterItem stop rest).1 with depth, finished },
        (cursor.afterItem stop rest).2) := by
  unfold afterItem
  split <;> rfl

/-- Nor does the reading of a property. -/
theorem readProperty_with
    (strings : Bytes) (cursor : Cursor) (depth : Nat) (finished : Bool) :
    { cursor with depth, finished }.readProperty strings =
      ((cursor.readProperty strings).1,
        { (cursor.readProperty strings).2 with depth, finished }) := by
  simp only [readProperty, afterItem_with]
  split
  · rfl
  · split
    · rfl
    · split
      · rfl
      · split
        · rfl
        · split
          · rfl
          · rcases cursor.afterItem _ _ with ⟨after, filled⟩
            cases filled <;> rfl

theorem finished_readProperty (strings : Bytes) (cursor : Cursor) :
    (cursor.readProperty strings).2.finished = cursor.finished :=
  congrArg (·.2.finished) (readProperty_with strings cursor cursor.depth cursor.finished)

theorem finished_readBegin (cursor : Cursor) :
    cursor.readBegin.2.finished = cursor.finished := by
  unfold readBegin
  split
  · rfl
  · split
    · rfl
    · have hafter := afterItem_with cursor cursor.depth cursor.finished
      split <;>
      · rename_i hitem
        rw [hafter] at hitem
        exact congrArg (·.1.finished) hitem.symm

/-- Behind a token the block goes on. -/
theorem finished_of_token
    {token : Token}
    (h : cursor.next strings = (.ok (some token), after)) :
    after.finished = false := by
  unfold next at h
  split at h
  · cases h
  · rename_i hopen
    have hopen : cursor.finished = false := by
      simpa using hopen
    simp only at h
    split at h
    · cases h
    · rename_i code rest hcell
      have hafter := congrArg (·.2.finished) h
      rw [← hopen, ← hafter]
      unfold readItem at h ⊢
      split at h
      · exact finished_readBegin _
      · unfold readEnd
        split <;> rfl
      · exact finished_readProperty strings _
      · unfold readFinish at h
        split at h <;> cases h
      · cases h
      · cases h

/-- Only the marker of a property announces one. -/
theorem code_of_property
    {property : Property}
    (h : cursor.next strings = (.ok (some (.property property)), after)) :
    ∃ rest, Bytes.takeCell? cursor.atMarker.rest = some (Marker.property.code, rest) := by
  unfold next at h
  split at h
  · cases h
  · simp only at h
    split at h
    · cases h
    · rename_i code rest hcell
      unfold readItem at h
      split at h
      · obtain ⟨name, filling, left, hname, -⟩ := octets_of_readBegin h
        cases hname
      · unfold readEnd at h
        split at h <;> cases h
      · rename_i hmarker
        exact ⟨rest, Marker.code_of_ofCode? hmarker ▸ hcell⟩
      · unfold readFinish at h
        split at h <;> cases h
      · cases h
      · cases h

/-- A step to a property is the same step with any number of open nodes. -/
theorem next_with
    {rest : Bytes}
    (hcell : Bytes.takeCell? cursor.atMarker.rest = some (Marker.property.code, rest))
    (depth : Nat) :
    { cursor with depth }.next strings =
      ((cursor.next strings).1, { (cursor.next strings).2 with depth }) := by
  have hmarker : { cursor with depth }.atMarker = { cursor.atMarker with depth } := rfl
  unfold next
  split
  · rfl
  · simp only [hmarker, hcell, readItem, Marker.ofCode?_code, finished_readProperty]
    exact readProperty_with strings
      { cursor.atMarker with rest, position := cursor.atMarker.position + 4 } depth
      cursor.atMarker.finished

/-- Without the marker of a property there is none. -/
theorem properties_of_other
    {code : Nat} {rest : Bytes}
    (hcell : Bytes.takeCell? cursor.atMarker.rest = some (code, rest))
    (hother : code ≠ Marker.property.code) :
    cursor.properties strings = ⟨[], none⟩ := by
  rw [properties, hcell]
  exact if_neg hother

theorem properties_of_truncated
    (hcell : Bytes.takeCell? cursor.atMarker.rest = none) :
    cursor.properties strings = ⟨[], some .truncated⟩ := by
  rw [properties, hcell]

/-- With that marker everything depends on the next step. -/
theorem properties_of_property
    {rest : Bytes}
    (hcell : Bytes.takeCell? cursor.atMarker.rest = some (Marker.property.code, rest)) :
    cursor.properties strings =
      match cursor.next strings with
      | (.ok (some (.property property)), after) =>
          ⟨property :: (after.properties strings).properties, (after.properties strings).fault⟩
      | (.ok _, _) => ⟨[], none⟩
      | (.error fault, _) => ⟨[], some fault⟩ := by
  rw [properties, hcell]
  simp only [↓reduceIte]
  split <;> simp_all

/-- The properties of a node are read alike wherever the node is. -/
theorem properties_with (cursor : Cursor) (depth : Nat) :
    { cursor with depth }.properties strings = cursor.properties strings := by
  fun_induction Cursor.properties strings cursor with
  | case1 cursor hcell => exact properties_of_truncated hcell
  | case2 cursor rest property after hnext later hcell ih =>
      have hdeeper : Bytes.takeCell? { cursor with depth }.atMarker.rest =
          some (Marker.property.code, rest) := hcell
      rw [properties_of_property hdeeper, next_with hcell, hnext]
      simp only [ih, later]
  | case3 cursor rest token after hother hnext hcell =>
      have hdeeper : Bytes.takeCell? { cursor with depth }.atMarker.rest =
          some (Marker.property.code, rest) := hcell
      rw [properties_of_property hdeeper, next_with hcell, hnext]
      rcases token with _ | (name | _ | property)
      · rfl
      · rfl
      · rfl
      · exact absurd rfl (hother property)
  | case4 cursor rest fault after hnext hcell =>
      have hdeeper : Bytes.takeCell? { cursor with depth }.atMarker.rest =
          some (Marker.property.code, rest) := hcell
      rw [properties_of_property hdeeper, next_with hcell, hnext]
  | case5 cursor code rest hcell hother => exact properties_of_other hcell hother

theorem leading_walk_of_other
    (hother : ∀ property after, cursor.next strings ≠ (.ok (some (.property property)), after)) :
    leading (cursor.walk strings).tokens = [] := by
  rcases hnext : cursor.next strings with ⟨fault | token, after⟩
  · rw [walk_of_fault hnext]
    rfl
  · rcases token with _ | (name | _ | property)
    · rw [walk_of_end hnext]
      rfl
    · rw [walk_of_token hnext]
      rfl
    · rw [walk_of_token hnext]
      rfl
    · exact absurd hnext (hother property after)

/-- The properties that follow a cursor are those that its walk meets first. -/
theorem properties_eq_leading (cursor : Cursor) :
    (cursor.properties strings).properties = leading (cursor.walk strings).tokens := by
  fun_induction Cursor.properties strings cursor with
  | case1 cursor hcell =>
      refine (leading_walk_of_other fun property after hnext => ?_).symm
      obtain ⟨rest, hproperty⟩ := code_of_property hnext
      rw [hcell] at hproperty
      cases hproperty
  | case2 cursor rest property after hnext later hcell ih =>
      rw [walk_of_token hnext]
      exact congrArg (List.cons property) ih
  | case3 cursor rest token left hother hnext hcell =>
      refine (leading_walk_of_other fun property after hproperty => ?_).symm
      rw [hnext] at hproperty
      cases hproperty
      exact hother property rfl
  | case4 cursor rest fault after hnext hcell =>
      rw [walk_of_fault hnext]
      rfl
  | case5 cursor code rest hcell hother =>
      refine (leading_walk_of_other fun property after hnext => ?_).symm
      obtain ⟨rest, hproperty⟩ := code_of_property hnext
      rw [hcell] at hproperty
      cases hproperty
      exact hother rfl

/-- A node reads its properties as the cursor at its contents would. -/
theorem properties_of_begin
    {name : String} {node : Node}
    (hnext : cursor.next strings = (.ok (some (.beginNode name)), after))
    (hnode : Node.ofStep? strings (.beginNode name, after) = some node) :
    node.properties = after.properties strings := by
  cases hnode
  have hsame : { after with depth := 1 }.properties strings = after.properties strings :=
    properties_with after 1
  rw [← hsame, finished_of_token hnext]
  rfl

/-- A node that a walk begins has the properties that the walk meets next. -/
theorem outline_of_begin
    {name : String}
    (hnext : cursor.next strings = (.ok (some (.beginNode name)), after)) :
    (Node.ofStep? strings (.beginNode name, after)).map Node.outline =
      some ⟨name, leading (after.walk strings).tokens⟩ := by
  obtain ⟨node, hnode⟩ : ∃ node, Node.ofStep? strings (.beginNode name, after) = some node :=
    ⟨_, rfl⟩
  have hname : node.name = name := by
    cases hnode
    rfl
  rw [hnode, Option.map_some, Node.outline, hname, properties_of_begin hnext hnode,
    properties_eq_leading]

/-- The nodes of a walk have the outlines of its tokens. -/
theorem outline_walk (cursor : Cursor) :
    ((cursor.walk strings).steps.filterMap (Node.ofStep? strings)).map Node.outline =
      outlines (cursor.walk strings).tokens := by
  fun_induction Cursor.walk strings cursor with
  | case1 cursor token after hnext later ih =>
      rcases token with name | _ | property
      · have hnode := outline_of_begin hnext
        simp only [Node.ofStep?, Option.map_some, Option.some.injEq] at hnode
        simp only [Walk.tokens, List.filterMap_cons, List.map_cons, outlines, Node.ofStep?, hnode,
          List.cons.injEq]
        exact ⟨rfl, ih⟩
      · exact ih
      · exact ih
  | case2 => rfl
  | case3 => rfl

end Cursor

/-- The nodes of a blob have the outlines of the tokens that its walk meets. -/
theorem Blob.outline_nodes (blob : Blob) :
    blob.nodes.nodes.map Node.outline = outlines blob.walk.tokens :=
  Cursor.outline_walk _

end DeviceTree
end FirmwareVariables
