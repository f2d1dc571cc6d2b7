import FirmwareVariables.Proofs.DeviceTree.Items
import FirmwareVariables.Proofs.DeviceTree.Outline

/-!
# Listing the properties of a node

The octets of a property are read twice: by the walk, which passes over them, and by a cursor of
the node's own, which looks at each marker before it takes the property behind it. The first
section follows the second reader through a fault and finds the walk at the same place with the
same fault.

The properties are handed out by a `PropertyReader`, one by one and as often as one likes. What it
has still to give is the list of them with the fault as its last item, if there is one
(`PropertyReader.next_remaining`).

The main statement, `Blob.properties_follow_walk`, says so of each node of a blob. Its properties
are those that the walk meets directly behind the beginning of the node; where a fault ends them,
the walk ends with it before another node begins.
-/

namespace FirmwareVariables
namespace DeviceTree

section Asked

variable {State Item : Type} {next : State → Option Item × State} {remaining : State → List Item}

/-- What an iterator answers when it is asked `count` times. -/
def asked (next : State → Option Item × State) : Nat → State → List (Option Item)
  | 0, _ => []
  | count + 1, state => (next state).1 :: asked next count (next state).2

/-- An iterator that gives the first of a list and keeps the others gives them all, then nothing. -/
theorem asked_eq
    (hnext : ∀ state,
      (next state).1 = (remaining state).head? ∧
        remaining (next state).2 = (remaining state).tail)
    (count : Nat) (state : State) :
    asked next count state =
      (List.range count).map fun place => (remaining state)[place]? := by
  induction count generalizing state with
  | zero => rfl
  | succ count ih =>
      obtain ⟨hfirst, hlater⟩ := hnext state
      rw [List.range_succ_eq_map, List.map_cons, List.map_map, asked, ih, hfirst, hlater,
        List.head?_eq_getElem?]
      simp only [List.getElem?_tail, Function.comp_def, Nat.succ_eq_add_one]

end Asked

/-- Tokens are the properties at their front and what begins with none. -/
theorem exists_eq_leading_append (tokens : List Token) :
    ∃ others,
      tokens = (leading tokens).map .property ++ others ∧
      ∀ property, others.head? ≠ some (.property property) := by
  induction tokens with
  | nil => exact ⟨[], rfl, by simp⟩
  | cons token tokens ih =>
      cases token with
      | property property =>
          obtain ⟨others, htokens, hhead⟩ := ih
          exact ⟨others, congrArg (List.cons _) htokens, hhead⟩
      | beginNode name => exact ⟨.beginNode name :: tokens, rfl, by simp⟩
      | endNode => exact ⟨.endNode :: tokens, rfl, by simp⟩

namespace Cursor

variable {strings : Bytes} {cursor after : Cursor} {token : Token}

/-- Without another whole cell a step answers that the block is truncated. -/
theorem next_of_truncated
    (hopen : cursor.finished = false)
    (hcell : Bytes.takeCell? cursor.atMarker.rest = none) :
    cursor.next strings = (.error .truncated, cursor.atMarker) := by
  rw [next, hopen]
  simp only [Bool.false_eq_true, ↓reduceIte, hcell]

/-- A fault that ends a list of properties ends the walk at the same place. -/
theorem walk_of_properties_fault
    {fault : Error}
    (hopen : cursor.finished = false)
    (hfault : (cursor.properties strings).fault = some fault) :
    (cursor.walk strings).tokens = (cursor.properties strings).properties.map .property ∧
      (cursor.walk strings).fault = some fault := by
  fun_induction Cursor.properties strings cursor with
  | case1 cursor hcell =>
      cases hfault
      rw [walk_of_fault (next_of_truncated hopen hcell)]
      exact ⟨rfl, rfl⟩
  | case2 cursor rest property after hnext later hcell ih =>
      obtain ⟨htokens, hlater⟩ := ih (finished_of_token hnext) hfault
      rw [walk_of_token hnext]
      exact ⟨congrArg (List.cons _) htokens, hlater⟩
  | case3 => cases hfault
  | case4 cursor rest fault after hnext hcell =>
      cases hfault
      rw [walk_of_fault hnext]
      exact ⟨rfl, rfl⟩
  | case5 => cases hfault

/-- The first step of a walk is what its cursor answers, and the walk goes on behind it. -/
theorem next_of_steps_cons
    {behind : List (Token × Cursor)}
    (hsteps : (cursor.walk strings).steps = (token, after) :: behind) :
    cursor.next strings = (.ok (some token), after) ∧
      after.walk strings = ⟨behind, (cursor.walk strings).fault⟩ := by
  rcases hnext : cursor.next strings with ⟨fault | _ | first, between⟩
  · rw [walk_of_fault hnext] at hsteps
    cases hsteps
  · rw [walk_of_end hnext] at hsteps
    cases hsteps
  · rw [walk_of_token hnext] at hsteps ⊢
    cases hsteps
    exact ⟨rfl, rfl⟩

/-- A step of a walk is a step from some cell, and the walk goes on from where it ends. -/
theorem walk_behind_step
    {before behind : List (Token × Cursor)}
    (hopen : cursor.finished = false)
    (haligned : cursor.position % 4 = 0)
    (hsteps : (cursor.walk strings).steps = before ++ (token, after) :: behind) :
    (∃ place : Cursor,
      place.finished = false ∧
      place.position % 4 = 0 ∧
      place.next strings = (.ok (some token), after)) ∧
    after.walk strings = ⟨behind, (cursor.walk strings).fault⟩ := by
  induction before generalizing cursor with
  | nil =>
      obtain ⟨hnext, hwalk⟩ := next_of_steps_cons hsteps
      exact ⟨⟨cursor, hopen, haligned, hnext⟩, hwalk⟩
  | cons step before ih =>
      obtain ⟨hnext, hwalk⟩ := next_of_steps_cons hsteps
      obtain ⟨read, hread⟩ := reads_of_next hopen haligned hnext
      have hlater := ih hread.unfinished (hread.aligned haligned) (congrArg Walk.steps hwalk)
      rw [hwalk] at hlater
      exact hlater

end Cursor

/-- The items of a list of properties: the properties, and behind them the fault, if any. -/
def PropertyRun.items (run : PropertyRun) : List (Except Error Property) :=
  run.properties.map .ok ++ (run.fault.map .error).toList

namespace PropertyReader

variable {strings : Bytes}

/-- What a reader answers when it is asked `count` times. -/
def answers (strings : Bytes) : Nat → PropertyReader → List (Option (Except Error Property)) :=
  asked (next strings)

/-- What a reader has still to give. -/
def remaining (strings : Bytes) (reader : PropertyReader) : List (Except Error Property) :=
  if reader.done then
    []
  else
    (reader.cursor.properties strings).items

theorem remaining_of_open
    {reader : PropertyReader}
    (hopen : ¬ reader.done = true) :
    reader.remaining strings = (reader.cursor.properties strings).items :=
  if_neg hopen

/-- A reader gives the first of what it has still to give, and keeps the others. -/
theorem next_remaining (strings : Bytes) (reader : PropertyReader) :
    (reader.next strings).1 = (reader.remaining strings).head? ∧
      (reader.next strings).2.remaining strings = (reader.remaining strings).tail := by
  fun_cases PropertyReader.next strings reader with
  | case1 hdone => simp [remaining, hdone]
  | case2 hopen hcell =>
      rw [remaining_of_open hopen, Cursor.properties_of_truncated hcell]
      exact ⟨rfl, rfl⟩
  | case3 hopen rest property after hnext hcell =>
      rw [remaining_of_open hopen, Cursor.properties_of_property hcell, hnext]
      exact ⟨rfl, rfl⟩
  | case4 hopen rest other after hother hnext hcell =>
      rw [remaining_of_open hopen, Cursor.properties_of_property hcell, hnext]
      cases other with
      | none => exact ⟨rfl, rfl⟩
      | some token =>
          cases token with
          | property property => exact absurd rfl (hother property)
          | beginNode name => exact ⟨rfl, rfl⟩
          | endNode => exact ⟨rfl, rfl⟩
  | case5 hopen rest fault after hnext hcell =>
      rw [remaining_of_open hopen, Cursor.properties_of_property hcell, hnext]
      exact ⟨rfl, rfl⟩
  | case6 hopen code rest hcell hcode =>
      rw [remaining_of_open hopen, Cursor.properties_of_other hcell hcode]
      exact ⟨rfl, rfl⟩

/-- A reader of a node gives the items of the node's list, and then nothing. -/
theorem answers_ofNode (node : Node) (count : Nat) :
    answers node.strings count (.ofNode node) =
      (List.range count).map fun place => node.properties.items[place]? :=
  asked_eq (next_remaining node.strings) count (.ofNode node)

end PropertyReader

namespace Node

variable {strings : Bytes} {node : Node}

/-- Only the beginning of a node makes one. -/
theorem beginNode_of_ofStep?
    {step : Token × Cursor}
    (hnode : ofStep? strings step = some node) :
    step.1 = .beginNode node.name := by
  obtain ⟨token, after⟩ := step
  cases token with
  | beginNode name =>
      cases hnode
      rfl
  | endNode => cases hnode
  | property property => cases hnode

/-- Each node among those of a walk's steps begins at one of the steps. -/
theorem exists_step_of_nodes
    {steps : List (Token × Cursor)} {earlier later : List Node}
    (hnodes : steps.filterMap (ofStep? strings) = earlier ++ node :: later) :
    ∃ before after behind,
      steps = before ++ (.beginNode node.name, after) :: behind ∧
      before.filterMap (ofStep? strings) = earlier ∧
      ofStep? strings (.beginNode node.name, after) = some node ∧
      behind.filterMap (ofStep? strings) = later := by
  obtain ⟨front, back, rfl, hearlier, hback⟩ := List.filterMap_eq_append_iff.1 hnodes
  obtain ⟨silent, ⟨token, after⟩, behind, rfl, hsilent, hnode, hlater⟩ :=
    List.filterMap_eq_cons_iff.1 hback
  obtain rfl : token = .beginNode node.name := beginNode_of_ofStep? hnode
  refine ⟨front ++ silent, after, behind, (List.append_assoc ..).symm, ?_, hnode, hlater⟩
  rw [List.filterMap_append, hearlier, List.filterMap_eq_nil_iff.2 hsilent, List.append_nil]

/-- A look-up that finds nothing says that no property in the list has the name. -/
theorem property?_eq_none_iff (node : Node) (name : String) :
    node.property? name = none ↔
      ∀ property ∈ node.properties.properties, property.name ≠ name := by
  simp [property?]

end Node

namespace Blob

variable {blob : Blob} {earlier later : List Node} {node : Node}

/--
A node lists the properties that the walk meets directly behind its beginning, and a fault in them
is the fault of the walk, with nothing between.
-/
theorem exists_leading_of_nodes
    (hnodes : blob.nodes.nodes = earlier ++ node :: later) :
    ∃ before after behind,
      blob.walk.steps = before ++ (.beginNode node.name, after) :: behind ∧
      before.filterMap (Node.ofStep? blob.stringsBlock) = earlier ∧
      Node.ofStep? blob.stringsBlock (.beginNode node.name, after) = some node ∧
      behind.filterMap (Node.ofStep? blob.stringsBlock) = later ∧
      node.properties.properties = leading (behind.map Prod.fst) ∧
      ∀ fault, node.properties.fault = some fault →
        behind.map Prod.fst = node.properties.properties.map .property ∧
          blob.nodes.fault = some fault := by
  obtain ⟨before, after, behind, hsteps, hearlier, hnode, hlater⟩ :=
    Node.exists_step_of_nodes hnodes
  obtain ⟨⟨place, -, -, hnext⟩, hwalk⟩ := Cursor.walk_behind_step rfl rfl hsteps
  refine ⟨before, after, behind, hsteps, hearlier, hnode, hlater, ?_, fun fault hfault => ?_⟩
  · rw [Cursor.properties_of_begin hnext hnode, Cursor.properties_eq_leading, hwalk]
    rfl
  · rw [Cursor.properties_of_begin hnext hnode] at hfault ⊢
    have hends := Cursor.walk_of_properties_fault (Cursor.finished_of_token hnext) hfault
    rw [hwalk] at hends
    exact hends

/-- A fault in the properties of a node is the fault of the walk, and no node begins behind it. -/
theorem fault_of_properties_fault
    {fault : Error}
    (hnodes : blob.nodes.nodes = earlier ++ node :: later)
    (hfault : node.properties.fault = some fault) :
    later = [] ∧ blob.nodes.fault = some fault := by
  obtain ⟨before, after, behind, -, -, -, rfl, -, hends⟩ := exists_leading_of_nodes hnodes
  obtain ⟨htokens, hsame⟩ := hends fault hfault
  refine ⟨List.filterMap_eq_nil_iff.2 fun step hstep => ?_, hsame⟩
  -- Behind the node there are properties only.
  have htoken : step.1 ∈ behind.map Prod.fst := List.mem_map_of_mem hstep
  rw [htokens] at htoken
  obtain ⟨property, -, hproperty⟩ := List.mem_map.1 htoken
  obtain ⟨token, cursor⟩ := step
  cases hproperty
  rfl

/--
The properties that a node lists are the ones that the walk meets directly behind the beginning
of the node, up to another token or a fault. A reader of them gives each one, then the fault if
there is one, and nothing behind these, however often it is asked. A fault that ends the list is
what the walk answers next, with no node before it. So where the walk goes on to another node or to
its end, every node so far has a list without a fault, and a look-up that found nothing had all of
the list.
-/
theorem properties_follow_walk
    (hnodes : blob.nodes.nodes = earlier ++ node :: later) :
    (∃ before after behind others,
      blob.walk.steps = before ++ (.beginNode node.name, after) :: behind ∧
      before.filterMap (Node.ofStep? blob.stringsBlock) = earlier ∧
      Node.ofStep? blob.stringsBlock (.beginNode node.name, after) = some node ∧
      behind.map Prod.fst = node.properties.properties.map .property ++ others ∧
      (∀ property, others.head? ≠ some (.property property)) ∧
      ∀ fault, node.properties.fault = some fault → others = []) ∧
    (∀ count,
      PropertyReader.answers node.strings count (.ofNode node) =
        (List.range count).map fun place => node.properties.items[place]?) ∧
    (∀ fault, node.properties.fault = some fault →
      later = [] ∧ blob.nodes.fault = some fault) ∧
    (later ≠ [] ∨ blob.nodes.fault = none →
      ∀ found ∈ earlier ++ [node],
        found.properties.fault = none ∧
        ∀ name, found.property? name = none →
          ∀ property ∈ found.properties.properties, property.name ≠ name) := by
  refine ⟨?_, PropertyReader.answers_ofNode node, fun fault => fault_of_properties_fault hnodes, ?_⟩
  · obtain ⟨before, after, behind, hsteps, hearlier, hnode, -, hlist, hends⟩ :=
      exists_leading_of_nodes hnodes
    obtain ⟨others, htokens, hhead⟩ := exists_eq_leading_append (behind.map Prod.fst)
    rw [← hlist] at htokens
    refine ⟨before, after, behind, others, hsteps, hearlier, hnode, htokens, hhead, ?_⟩
    intro fault hfault
    rw [(hends fault hfault).1] at htokens
    exact List.append_right_eq_self.1 htokens.symm
  · intro hgoes found hfound
    refine ⟨?_, fun name => (found.property?_eq_none_iff name).1⟩
    rw [Option.eq_none_iff_forall_ne_some]
    intro fault hfault
    rcases List.mem_append.1 hfound with hmem | hmem
    · -- An earlier node has the node itself behind it.
      obtain ⟨front, back, rfl⟩ := List.append_of_mem hmem
      rw [List.append_assoc] at hnodes
      obtain ⟨hnone, -⟩ := fault_of_properties_fault hnodes hfault
      simp at hnone
    · rw [List.mem_singleton.1 hmem] at hfault
      obtain ⟨hnone, hsome⟩ := fault_of_properties_fault hnodes hfault
      rcases hgoes with hgoes | hgoes
      · exact hgoes hnone
      · rw [hgoes] at hsome
        cases hsome

/-- A node with two properties and in it another one, whose second property has no name. -/
def namelessBlock : Bytes :=
  (Writer.empty.takeAll
    [.beginNode "", .property "x" [1], .nop, .property "y" [], .beginNode "a", .nop,
      .property "y" [2]]).1 ++ [0, 0, 0, 3, 0, 0, 0, 1, 0, 0, 0, 99, 7, 0, 0, 0]

theorem properties_follow_walk_nameless :
    ∃ blob root child,
      Blob.ofBytes (assemble namelessBlock [0x78, 0, 0x79, 0]) = .ok blob ∧
      blob.nodes.nodes = [root] ++ child :: [] ∧
      child.properties = ⟨[⟨"y", [2]⟩], some .bounds⟩ ∧
      PropertyReader.answers child.strings 4 (.ofNode child) =
        [some (.ok ⟨"y", [2]⟩), some (.error .bounds), none, none] ∧
      blob.nodes.fault = some .bounds ∧
      root.properties.fault = none ∧
      ∃ before after behind others,
        blob.walk.steps = before ++ (.beginNode root.name, after) :: behind ∧
        behind.map Prod.fst = [.property ⟨"x", [1]⟩, .property ⟨"y", []⟩] ++ others := by
  have hshort : (assemble namelessBlock [0x78, 0, 0x79, 0]).length < 4294967296 := by
    decide +kernel
  let blob : Blob :=
    ⟨headerOver namelessBlock [0x78, 0, 0x79, 0], assemble namelessBlock [0x78, 0, 0x79, 0],
      namelessBlock, [0x78, 0, 0x79, 0]⟩
  let root : Node := ⟨"", 0, 8, namelessBlock.drop 8, [0x78, 0, 0x79, 0]⟩
  let child : Node := ⟨"a", 1, 48, namelessBlock.drop 48, [0x78, 0, 0x79, 0]⟩
  have hnodes : blob.nodes.nodes = [root] ++ child :: [] := by
    decide +kernel
  have hfirst : blob.nodes.nodes = [] ++ root :: [child] := hnodes
  have hroot : root.properties = ⟨[⟨"x", [1]⟩, ⟨"y", []⟩], none⟩ := by
    decide +kernel
  have hchild : child.properties = ⟨[⟨"y", [2]⟩], some .bounds⟩ := by
    decide +kernel
  obtain ⟨⟨before, after, behind, others, hsteps, -, -, htokens, -⟩, -, -, hgoes⟩ :=
    properties_follow_walk hfirst
  obtain ⟨-, hanswers, hfault, -⟩ := properties_follow_walk hnodes
  rw [hroot] at htokens
  rw [hchild] at hanswers
  exact ⟨blob, root, child, ofBytes_assemble hshort, hnodes, hchild, hanswers 4,
    (hfault .bounds (by rw [hchild])).2, (hgoes (.inl (by simp)) root (by simp)).1, before,
    after, behind, others, hsteps, htokens⟩

end Blob
end DeviceTree
end FirmwareVariables
