import FirmwareVariables.Proofs.DeviceTree.SilentCells

/-!
# Writing a tree again

The tokens of a cursor that meets no fault can be written as the steps of a new tree. Whatever the
reader accepts keeps to the conditions of the writer: names end at their NULs, values have a size
that is read, and no node is ended that is not open (`Spells.writable`, `Spells.closed`,
`openNodes_pos_of_endNode`).

Where no fault is met, all that can be told of the nodes is a function of the tokens
(`Cursor.sights_walk`). The main statement, `answers_rewritten`, follows: the new blob is accepted,
its cursor answers the same tokens, and its nodes are the same.
-/

namespace FirmwareVariables
namespace DeviceTree

/-- The step that writes a token. -/
def Token.step : Token → WriteStep
  | .beginNode name => .beginNode name
  | .endNode => .endNode
  | .property held => .property held.name held.value

/-- Steps that write tokens have these tokens. -/
theorem filterMap_token?_step (tokens : List Token) :
    (tokens.map Token.step).filterMap WriteStep.token? = tokens := by
  induction tokens with
  | nil => rfl
  | cons token tokens ih => cases token <;> exact congrArg (List.cons _) ih

namespace Spells

variable {strings octets : Bytes} {tokens : List Token} {depth : Nat}

/-- Tokens that are read can be written. -/
theorem writable
    (h : Spells strings depth octets tokens) :
    ∀ token ∈ tokens, token.Writable := by
  induction h with
  | finish beyond => simp
  | nop later ih => exact ih
  | beginNode name filling hname hfilling later ih => exact List.forall_mem_cons.2 ⟨hname, ih⟩
  | endNode later ih => exact List.forall_mem_cons.2 ⟨trivial, ih⟩
  | property held offset filling hsize hoffset hname hfilling later ih =>
      exact List.forall_mem_cons.2 ⟨⟨(nameAt_eq_ok_iff.1 hname).2, hsize⟩, ih⟩

/-- They end every node that is open, and no other. -/
theorem closed
    (h : Spells strings depth octets tokens) :
    openAfter? depth tokens = some 0 := by
  induction h with
  | finish beyond => rfl
  | nop later ih => exact ih
  | beginNode name filling hname hfilling later ih => exact ih
  | endNode later ih => exact ih
  | property held offset filling hsize hoffset hname hfilling later ih =>
      rw [openAfter?_property]
      exact ih

end Spells

/-- Where steps end no node that is not open, a writer has one open at each end of a node. -/
theorem openNodes_pos_of_endNode
    {before behind : List WriteStep} {depth : Nat}
    (hopen :
      openAfter? 0 ((before ++ .endNode :: behind).filterMap WriteStep.token?) = some depth) :
    0 < (Writer.empty.takeAll before).2.openNodes := by
  rw [List.filterMap_append, openAfter?_append, Option.bind_eq_some_iff] at hopen
  obtain ⟨between, hbefore, hend⟩ := hopen
  have hbetween : (Writer.empty.takeAll before).2.openNodes = between := openNodes_takeAll hbefore
  rw [hbetween]
  cases between with
  | zero => cases hend
  | succ between => exact Nat.zero_lt_succ between

/-- What can be told of the nodes that begin in tokens, with `depth` nodes open around these. -/
def sights : Nat → List Token → List (String × Nat × PropertyRun)
  | _, [] => []
  | depth, .beginNode name :: tokens =>
      (name, depth, ⟨leading tokens, none⟩) :: sights (depth + 1) tokens
  | depth, .endNode :: tokens => sights (depth - 1) tokens
  | depth, .property _ :: tokens => sights depth tokens

namespace Cursor

variable {strings : Bytes} {cursor : Cursor}

/-- Where a walk meets no fault, the properties in front of it are complete. -/
theorem properties_of_walk
    (hopen : cursor.finished = false)
    (hfault : (cursor.walk strings).fault = none) :
    cursor.properties strings = ⟨leading (cursor.walk strings).tokens, none⟩ := by
  have hcomplete : (cursor.properties strings).fault = none := by
    rw [Option.eq_none_iff_forall_ne_some]
    intro fault hsome
    have hsame := (walk_of_properties_fault hopen hsome).2
    rw [hfault] at hsame
    cases hsame
  rw [← properties_eq_leading, ← hcomplete]

/-- Where a walk meets no fault, its tokens say all that can be told of its nodes. -/
theorem sights_walk
    (hopen : cursor.finished = false)
    (haligned : cursor.position % 4 = 0)
    (hfault : (cursor.walk strings).fault = none) :
    (cursor.nodes strings).map Node.sight =
      sights cursor.depth (cursor.walk strings).tokens := by
  fun_induction Cursor.walk strings cursor with
  | case1 cursor token after hnext later ih =>
      obtain ⟨read, hread⟩ := reads_of_next hopen haligned hnext
      have hlater := ih hread.unfinished (hread.aligned haligned) hfault
      have hnested := hread.nested
      rw [nodes_of_token hnext, List.map_append, hlater, ← Option.toList_map]
      cases token with
      | beginNode name =>
          have hdepth : after.depth = cursor.depth + 1 := (Option.some.inj hnested).symm
          rw [sight_of_begin hnext, properties_of_walk hread.unfinished hfault, hdepth]
          rfl
      | endNode =>
          have hdepth := openAfter?_endNode_eq_some_iff.1 hnested
          rw [hdepth]
          rfl
      | property property =>
          have hdepth := (openAfter?_property cursor.depth property []).symm.trans hnested
          rw [← Option.some.inj hdepth]
          rfl
  | case2 cursor after hnext =>
      rw [nodes, walk_of_end hnext]
      rfl
  | case3 => cases hfault

end Cursor

/--
A tree whose cursor meets no fault can be written again from the tokens that it answers. No step
ends a node when none is open. If the new blob is short enough for the cells of its header, it is
accepted, its cursor answers the same tokens, and the same can be told of its nodes.
-/
theorem answers_rewritten
    {blob : Blob} {tokens : List Token}
    (htokens :
      Cursor.answers blob.stringsBlock (tokens.length + 1) (.start blob.structureBlock) =
        Token.allOf tokens) :
    let steps := tokens.map Token.step
    (∀ before behind,
      steps = before ++ .endNode :: behind → 0 < (Writer.empty.takeAll before).2.openNodes) ∧
    ((write steps).length < 4294967296 →
      ∃ again,
        Blob.ofBytes (write steps) = .ok again ∧
        Cursor.answers again.stringsBlock (tokens.length + 1) (.start again.structureBlock) =
          Token.allOf tokens ∧
        again.nodes.nodes.map Node.sight = blob.nodes.nodes.map Node.sight) := by
  intro steps
  rw [Cursor.answers_eq_allOf_iff] at htokens
  obtain ⟨hread, hfault⟩ := htokens
  have hspells := Cursor.spells_of_walk rfl rfl hfault
  rw [hread] at hspells
  have hsteps : steps.filterMap WriteStep.token? = tokens := filterMap_token?_step tokens
  have hopen : openAfter? 0 (steps.filterMap WriteStep.token?) = some 0 := by
    rw [hsteps]
    exact hspells.closed
  refine ⟨?_, fun hshort => ?_⟩
  · intro before behind hsplit
    rw [hsplit] at hopen
    exact openNodes_pos_of_endNode hopen
  · have hwritable : ∀ token ∈ steps.filterMap WriteStep.token?, token.Writable := by
      rw [hsteps]
      exact hspells.writable
    obtain ⟨again, haccepted, -, hagain, hagainFault⟩ := read_write hwritable hopen hshort
    have hclosed : (Writer.empty.takeAll steps).2.openNodes = 0 := openNodes_takeAll hopen
    rw [writtenTokens, hsteps, hclosed, List.replicate_zero, List.append_nil] at hagain
    refine ⟨again, haccepted, (Cursor.answers_eq_allOf_iff _ _).2 ⟨hagain, hagainFault⟩, ?_⟩
    calc again.nodes.nodes.map Node.sight
      _ = sights 0 again.walk.tokens := Cursor.sights_walk rfl rfl hagainFault
      _ = sights 0 blob.walk.tokens := by rw [hagain, ← hread]; rfl
      _ = blob.nodes.nodes.map Node.sight := (Cursor.sights_walk rfl rfl hfault).symm

end DeviceTree
end FirmwareVariables
