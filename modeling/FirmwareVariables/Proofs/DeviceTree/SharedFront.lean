import FirmwareVariables.Proofs.DeviceTree.Items
import FirmwareVariables.Proofs.DeviceTree.Outline

/-!
# Structure blocks with a shared front

Two structure blocks begin with the same octets and go on in different ways. As long as a walk
over one of them stays inside these octets, the walk over the other takes the same steps: what a
step reads to answer a token ends where the step leaves the cursor (`next_inside`).

The main statement, `nodes_shared`, follows the nodes: up to a node whose contents begin inside
the shared octets, both walks find nodes of the same names at the same places, and all of them
but the last one have the same properties.
-/

namespace FirmwareVariables
namespace DeviceTree

/-- The name of a node, and where it is in the tree and in the structure block. -/
def Node.place (node : Node) : String × Nat × Nat :=
  (node.name, node.depth, node.offset)

namespace Cursor

/-- The nodes that a walk from here finds. -/
def nodes (strings : Bytes) (cursor : Cursor) : List Node :=
  (cursor.walk strings).steps.filterMap (Node.ofStep? strings)

variable {strings : Bytes} {node : Node} {token : Token}

theorem nodes_of_token
    {cursor after : Cursor}
    (hnext : cursor.next strings = (.ok (some token), after)) :
    cursor.nodes strings =
      (Node.ofStep? strings (token, after)).toList ++ after.nodes strings := by
  rw [nodes, walk_of_token hnext, filterMap_cons_toList, nodes]

/-- No node begins without a token. -/
theorem token_of_mem_nodes
    {cursor : Cursor}
    (hnode : node ∈ cursor.nodes strings) :
    ∃ token after, cursor.next strings = (.ok (some token), after) := by
  rcases hnext : cursor.next strings with ⟨fault | _ | token, after⟩
  · rw [nodes, walk_of_fault hnext] at hnode
    cases hnode
  · rw [nodes, walk_of_end hnext] at hnode
    cases hnode
  · exact ⟨token, after, rfl⟩

/-- The contents of a node begin where the step that begins it ends, or farther on. -/
theorem after_le_offset
    {cursor after : Cursor}
    (hunfinished : cursor.finished = false)
    (haligned : cursor.position % 4 = 0)
    (hnext : cursor.next strings = (.ok (some token), after))
    (hnode : node ∈ cursor.nodes strings) :
    after.position ≤ node.offset := by
  unfold nodes at hnode
  revert token after
  fun_induction Cursor.walk strings cursor with
  | case1 cursor first between hfirst later ih =>
      intro token after hnext
      cases hnext.symm.trans hfirst
      obtain ⟨read, hread⟩ := reads_of_next hunfinished haligned hnext
      have hstop := hread.aligned haligned
      rw [filterMap_cons_toList, List.mem_append] at hnode
      rcases hnode with hhere | hlater
      · cases first with
        | beginNode name =>
            cases Option.mem_toList.1 hhere
            exact Nat.le_refl _
        | endNode => cases hhere
        | property property => cases hhere
      · obtain ⟨second, behind, hsecond⟩ := token_of_mem_nodes hlater
        obtain ⟨more, hmore⟩ := reads_of_next hread.unfinished hstop hsecond
        have hposition := hmore.position
        have hoffset := ih hread.unfinished hstop hlater hsecond
        omega
  | case2 => cases hnode
  | case3 => cases hnode

/-- A property that is answered is the first of those that follow. -/
theorem properties_of_next_property
    {cursor after : Cursor} {property : Property}
    (hnext : cursor.next strings = (.ok (some (.property property)), after)) :
    cursor.properties strings =
      ⟨property :: (after.properties strings).properties, (after.properties strings).fault⟩ := by
  obtain ⟨rest, hcell⟩ := code_of_property hnext
  rw [properties_of_property hcell, hnext]

/-- In front of any other token there are no properties, and no fault keeps them from view. -/
theorem properties_of_next_other
    {cursor after : Cursor}
    (hnext : cursor.next strings = (.ok (some token), after))
    (hother : ∀ property, token ≠ .property property) :
    cursor.properties strings = ⟨[], none⟩ := by
  rcases hcell : Bytes.takeCell? cursor.atMarker.rest with _ | ⟨code, rest⟩
  · unfold next at hnext
    split at hnext
    · cases hnext
    · simp only [hcell] at hnext
      cases hnext
  · by_cases hcode : code = Marker.property.code
    · rw [properties_of_property (hcode ▸ hcell), hnext]
      cases token with
      | beginNode name => rfl
      | endNode => rfl
      | property property => exact absurd rfl (hother property)
    · exact properties_of_other hcell hcode

section Shared

variable {shared rest : Bytes} {position depth : Nat}

/-- If a node is still to come inside the shared octets, the next step stays inside them. -/
theorem next_inside
    (haligned : position % 4 = 0)
    (hnode : node ∈ nodes strings ⟨shared ++ rest, position, depth, false⟩)
    (hoffset : node.offset ≤ position + shared.length) :
    ∃ token left stop depthAfter,
      left.length < shared.length ∧
      stop % 4 = 0 ∧
      stop + left.length = position + shared.length ∧
      ∀ other,
        next strings ⟨shared ++ other, position, depth, false⟩ =
          (.ok (some token), ⟨left ++ other, stop, depthAfter, false⟩) := by
  obtain ⟨token, after, hnext⟩ := token_of_mem_nodes hnode
  obtain ⟨read, hread⟩ := reads_of_next rfl haligned hnext
  have hafter := after_le_offset rfl haligned hnext hnode
  have hposition : after.position = position + read.length := hread.position
  have hsplit : shared ++ rest = read ++ after.rest := hread.rest
  have hlength : read.length ≤ shared.length := by
    omega
  obtain ⟨left, rfl⟩ : read <+: shared :=
    List.prefix_of_prefix_length_le ⟨after.rest, hsplit.symm⟩ ⟨rest, rfl⟩ hlength
  have hcell := hread.shows.length_pos
  refine ⟨token, left, position + read.length, after.depth, ?_, ?_, ?_, fun other => ?_⟩
  · rw [List.length_append]
    omega
  · rw [← hposition]
    exact hread.aligned haligned
  · rw [List.length_append, Nat.add_assoc]
  · rw [List.append_assoc]
    exact next_of_shows hread.shows haligned hread.nested

/-- The properties in front of a node inside the shared octets are the same. -/
theorem properties_shared
    (haligned : position % 4 = 0)
    (hnode : node ∈ nodes strings ⟨shared ++ rest, position, depth, false⟩)
    (hoffset : node.offset ≤ position + shared.length)
    (other : Bytes) :
    properties strings ⟨shared ++ other, position, depth, false⟩ =
      properties strings ⟨shared ++ rest, position, depth, false⟩ := by
  induction hsize : shared.length using Nat.strongRecOn generalizing shared position depth with
  | ind size ih =>
      obtain ⟨token, left, stop, depthAfter, hless, hstop, hlimit, hnext⟩ :=
        next_inside haligned hnode hoffset
      cases token with
      | beginNode name =>
          rw [properties_of_next_other (hnext other) (by simp),
            properties_of_next_other (hnext rest) (by simp)]
      | endNode =>
          rw [properties_of_next_other (hnext other) (by simp),
            properties_of_next_other (hnext rest) (by simp)]
      | property property =>
          rw [nodes_of_token (hnext rest)] at hnode
          have hlater := ih left.length (hsize ▸ hless) hstop hnode (by omega) rfl
          rw [properties_of_next_property (hnext other), properties_of_next_property (hnext rest),
            hlater]

/--
Up to a node inside the shared octets, two walks find nodes of the same names at the same places,
and the nodes before it have the same properties.
-/
theorem nodes_shared
    {earlier later : List Node}
    (haligned : position % 4 = 0)
    (hnodes : nodes strings ⟨shared ++ rest, position, depth, false⟩ = earlier ++ node :: later)
    (hoffset : node.offset ≤ position + shared.length)
    (other : Bytes) :
    ∃ same last more,
      nodes strings ⟨shared ++ other, position, depth, false⟩ = same ++ last :: more ∧
      (same ++ [last]).map Node.place = (earlier ++ [node]).map Node.place ∧
      same.map Node.properties = earlier.map Node.properties := by
  induction hsize : shared.length using Nat.strongRecOn
    generalizing shared position depth earlier with
  | ind size ih =>
      have hnode : node ∈ nodes strings ⟨shared ++ rest, position, depth, false⟩ := by
        simp [hnodes]
      obtain ⟨token, left, stop, depthAfter, hless, hstop, hlimit, hnext⟩ :=
        next_inside haligned hnode hoffset
      have hinside : node.offset ≤ stop + left.length := by
        omega
      have hsmaller : left.length < size := by
        omega
      rw [nodes_of_token (hnext rest)] at hnodes
      rw [nodes_of_token (hnext other)]
      cases token with
      | endNode => exact ih left.length hsmaller hstop hnodes hinside rfl
      | property property => exact ih left.length hsmaller hstop hnodes hinside rfl
      | beginNode name =>
          cases earlier with
          | nil =>
              cases hnodes
              exact ⟨[], _, _, rfl, rfl, rfl⟩
          | cons first earlier =>
              simp only [Node.ofStep?, Option.toList_some, List.cons_append, List.nil_append,
                List.cons.injEq] at hnodes
              obtain ⟨rfl, hnodes⟩ := hnodes
              obtain ⟨same, last, more, hsame, hplaces, hproperties⟩ :=
                ih left.length hsmaller hstop hnodes hinside rfl
              have hbehind : node ∈ nodes strings ⟨left ++ rest, stop, depthAfter, false⟩ := by
                simp [hnodes]
              have hread (beyond : Bytes) :
                  Node.properties ⟨name, depthAfter - 1, stop, left ++ beyond, strings⟩ =
                    properties strings ⟨left ++ beyond, stop, depthAfter, false⟩ :=
                properties_with ⟨left ++ beyond, stop, depthAfter, false⟩ 1
              refine ⟨⟨name, depthAfter - 1, stop, left ++ other, strings⟩ :: same, last, more,
                ?_, ?_, ?_⟩
              · rw [hsame]
                rfl
              · rw [List.cons_append, List.cons_append, List.map_cons, List.map_cons, hplaces]
                rfl
              · rw [List.map_cons, List.map_cons, hproperties, hread other, hread rest,
                  properties_shared hstop hbehind hinside other]

end Shared

end Cursor
end DeviceTree
end FirmwareVariables
