import FirmwareVariables.Proofs.DeviceTree.Listing
import FirmwareVariables.Proofs.DeviceTree.SharedFront
import Mathlib.Data.List.Chain

/-!
# The shape of a walk

A structure block may hold anything, and a walk over its nodes still has a shape. `Cursor.Laid`
says how nodes lie in what a cursor still has to read: apart from each other, inside the block and
at whole cells, each at most one level below the one before it. A step that begins a node puts one
in front of nodes that lie so (`Laid.begin`), and any other step leaves them as they are
(`Laid.skip`).

`NodeReader` asks for the nodes one by one, as often as one likes. The main statement,
`Blob.shape_of_nodes`, says what it answers for any blob, where its nodes stand among the tokens
of the cursor, and how they lie.
-/

namespace FirmwareVariables
namespace DeviceTree

def Token.begun? : Token → Option String
  | .beginNode name => some name
  | .endNode => none
  | .property _ => none

/-- Only the beginning of a node leads deeper. -/
theorem depth_le_of_begun?
    {token : Token} {depth depthAfter : Nat}
    (hopen : openAfter? depth [token] = some depthAfter)
    (hbegun : token.begun? = none) :
    depthAfter ≤ depth := by
  cases token with
  | beginNode name => cases hbegun
  | endNode =>
      have hdepth := openAfter?_endNode_eq_some_iff.1 hopen
      omega
  | property property =>
      rw [openAfter?_property] at hopen
      exact Nat.le_of_eq (Option.some.inj hopen).symm

/-- One node directly behind another in a walk. -/
structure Node.Precedes (earlier later : Node) : Prop where
  /-- At most one level is entered. -/
  depth : later.depth ≤ earlier.depth + 1
  /-- Between the two lie at least a marker and the cell in which a name ends. -/
  offset : earlier.offset + 8 ≤ later.offset

/-- The marker of a node and its name, with its NUL, fill two cells. -/
theorem Shows.eight_le_length
    {strings read : Bytes} {token : Token} {name : String}
    (h : Shows strings read token)
    (hbegin : token = .beginNode name) :
    8 ≤ read.length := by
  induction h with
  | @item item token hitem htoken =>
      have hmod := Item.length_octets_mod hitem
      subst hbegin
      cases item with
      | beginNode found filling =>
          simp only [Item.octets, List.length_append, List.length_cons,
            Bytes.length_ofCell] at hmod ⊢
          omega
      | nop => cases htoken
      | endNode => cases htoken
      | property held nameOffset filling => cases htoken
  | nop later ih =>
      have hlater := ih hbegin
      rw [List.length_append]
      omega

namespace Cursor

variable {strings read : Bytes} {cursor after : Cursor} {token : Token} {nodes : List Node}

/-- How nodes lie in what a cursor has still to read. -/
structure Laid (cursor : Cursor) (nodes : List Node) : Prop where
  room : 8 * nodes.length ≤ cursor.rest.length
  first : ∀ first ∈ nodes.head?,
    first.depth ≤ cursor.depth ∧ cursor.position + 8 ≤ first.offset
  chain : nodes.IsChain Node.Precedes
  inside : ∀ node ∈ nodes,
    node.offset % 4 = 0 ∧
      ∃ front,
        cursor.rest = front ++ node.contents ∧ node.offset = cursor.position + front.length

theorem laid_nil (cursor : Cursor) :
    Laid cursor [] where
  room := Nat.zero_le _
  first := by simp
  chain := .nil
  inside := by simp

/-- Nodes behind what a step reads are inside what the cursor before it reads. -/
theorem Laid.inside_of_reads
    (h : Laid after nodes)
    (hread : Reads strings cursor read token after) :
    ∀ node ∈ nodes,
      node.offset % 4 = 0 ∧
        ∃ front,
          cursor.rest = front ++ node.contents ∧
            node.offset = cursor.position + front.length := by
  intro node hnode
  obtain ⟨haligned, front, hrest, hoffset⟩ := h.inside node hnode
  refine ⟨haligned, read ++ front, ?_, ?_⟩
  · rw [hread.rest, hrest, List.append_assoc]
  · rw [hoffset, hread.position, List.length_append, Nat.add_assoc]

/-- A step that begins no node leaves the nodes behind it as they are. -/
theorem Laid.skip
    (h : Laid after nodes)
    (hread : Reads strings cursor read token after)
    (hdepth : after.depth ≤ cursor.depth) :
    Laid cursor nodes where
  room := by
    have hroom := h.room
    rw [hread.rest, List.length_append]
    omega
  first := by
    intro first hfirst
    obtain ⟨hlevel, hplace⟩ := h.first first hfirst
    have hposition := hread.position
    omega
  chain := h.chain
  inside := h.inside_of_reads hread

/-- A step that begins a node puts it in front of those behind it. -/
theorem Laid.begin
    {name : String} {node : Node}
    (h : Laid after nodes)
    (hread : Reads strings cursor read (.beginNode name) after)
    (haligned : after.position % 4 = 0)
    (hnode : Node.ofStep? strings (.beginNode name, after) = some node) :
    Laid cursor (node :: nodes) := by
  have hlevel : cursor.depth + 1 = after.depth := Option.some.inj hread.nested
  have hsize := hread.shows.eight_le_length rfl
  have hposition := hread.position
  cases hnode
  constructor
  case room =>
    have hroom := h.room
    rw [hread.rest, List.length_append, List.length_cons]
    omega
  case first =>
    intro first hfirst
    cases hfirst
    simp only
    omega
  case chain =>
    rw [List.isChain_cons]
    refine ⟨fun second hsecond => ?_, h.chain⟩
    obtain ⟨hdeeper, hplace⟩ := h.first second hsecond
    constructor
    · simp only
      omega
    · exact hplace
  case inside =>
    refine List.forall_mem_cons.2 ⟨⟨haligned, read, hread.rest, hread.position⟩, ?_⟩
    exact h.inside_of_reads hread

/-- The nodes that a walk finds lie in what its cursor reads. -/
theorem laid_nodes
    (hopen : cursor.finished = false)
    (haligned : cursor.position % 4 = 0) :
    Laid cursor (cursor.nodes strings) := by
  fun_induction Cursor.walk strings cursor with
  | case1 cursor token after hnext later ih =>
      obtain ⟨read, hread⟩ := reads_of_next hopen haligned hnext
      have hstop := hread.aligned haligned
      have hlater := ih hread.unfinished hstop
      rw [nodes_of_token hnext]
      cases token with
      | beginNode name => exact hlater.begin hread hstop rfl
      | endNode => exact hlater.skip hread (depth_le_of_begun? hread.nested rfl)
      | property property => exact hlater.skip hread (depth_le_of_begun? hread.nested rfl)
  | case2 cursor after hnext =>
      rw [nodes, walk_of_end hnext]
      exact laid_nil cursor
  | case3 cursor fault after hnext =>
      rw [nodes, walk_of_fault hnext]
      exact laid_nil cursor

/-- The nodes that are open behind a step are those that the tokens up to it leave open. -/
theorem openAfter?_steps
    {before behind : List (Token × Cursor)}
    (hopen : cursor.finished = false)
    (haligned : cursor.position % 4 = 0)
    (hsteps : (cursor.walk strings).steps = before ++ (token, after) :: behind) :
    ∃ depth,
      openAfter? cursor.depth (before.map Prod.fst) = some depth ∧
        openAfter? depth [token] = some after.depth := by
  induction before generalizing cursor with
  | nil =>
      obtain ⟨hnext, -⟩ := next_of_steps_cons hsteps
      obtain ⟨read, hread⟩ := reads_of_next hopen haligned hnext
      exact ⟨cursor.depth, rfl, hread.nested⟩
  | cons step before ih =>
      obtain ⟨hnext, hwalk⟩ := next_of_steps_cons hsteps
      obtain ⟨read, hread⟩ := reads_of_next hopen haligned hnext
      obtain ⟨depth, hdepth, htoken⟩ :=
        ih hread.unfinished (hread.aligned haligned) (congrArg Walk.steps hwalk)
      have hfirst := openAfter?_append cursor.depth [step.1] (before.map Prod.fst)
      rw [hread.nested, Option.bind_some, hdepth] at hfirst
      exact ⟨depth, hfirst, htoken⟩

/-- The answer that ends a walk: the end of the block, or a fault. -/
def lastAnswer (fault : Option Error) : Answer :=
  match fault with
  | none => .ok none
  | some fault => .error fault

/-- A walk takes the tokens that its cursor answers, up to the first other answer. -/
theorem answers_walk (cursor : Cursor) :
    answers strings ((cursor.walk strings).tokens.length + 1) cursor =
      (cursor.walk strings).tokens.map (fun token => .ok (some token)) ++
        [lastAnswer (cursor.walk strings).fault] := by
  fun_induction Cursor.walk strings cursor with
  | case1 cursor token after hnext later ih =>
      simp only [Walk.tokens, List.map_cons, List.length_cons, List.cons_append]
      rw [answers, hnext]
      exact congrArg (List.cons _) ih
  | case2 cursor after hnext => simp [answers, hnext, Walk.tokens, lastAnswer]
  | case3 cursor fault after hnext => simp [answers, hnext, Walk.tokens, lastAnswer]

end Cursor

/-- What a walk over nodes gives, one by one: the nodes, and behind them the fault, if any. -/
def NodeWalk.items (walk : NodeWalk) : List (Except Error Node) :=
  walk.nodes.map .ok ++ (walk.fault.map .error).toList

namespace NodeReader

variable {strings : Bytes}

/-- What a reader answers when it is asked `count` times. -/
def answers (strings : Bytes) : Nat → NodeReader → List (Option (Except Error Node)) :=
  asked (next strings)

/-- What a reader has still to give. -/
def remaining (strings : Bytes) (reader : NodeReader) : List (Except Error Node) :=
  if reader.done then
    []
  else
    NodeWalk.items
      ⟨reader.cursor.nodes strings, (reader.cursor.walk strings).fault⟩

theorem remaining_of_open
    {reader : NodeReader}
    (hopen : ¬ reader.done = true) :
    reader.remaining strings =
      NodeWalk.items ⟨reader.cursor.nodes strings, (reader.cursor.walk strings).fault⟩ :=
  if_neg hopen

/-- A reader gives the first of what it has still to give, and keeps the others. -/
theorem next_remaining (strings : Bytes) (reader : NodeReader) :
    (reader.next strings).1 = (reader.remaining strings).head? ∧
      (reader.next strings).2.remaining strings = (reader.remaining strings).tail := by
  fun_induction NodeReader.next strings reader with
  | case1 reader hdone => simp [remaining, hdone]
  | case2 reader hopen token after hnext node hnode =>
      rw [remaining_of_open hopen, Cursor.nodes_of_token hnext, hnode,
        Cursor.walk_of_token hnext]
      exact ⟨rfl, rfl⟩
  | case3 reader hopen token after hnext hnode ih =>
      rw [remaining_of_open hopen, Cursor.nodes_of_token hnext, hnode,
        Cursor.walk_of_token hnext]
      exact ih
  | case4 reader hopen after hnext =>
      rw [remaining_of_open hopen, Cursor.nodes, Cursor.walk_of_end hnext]
      exact ⟨rfl, rfl⟩
  | case5 reader hopen fault after hnext =>
      rw [remaining_of_open hopen, Cursor.nodes, Cursor.walk_of_fault hnext]
      exact ⟨rfl, rfl⟩

/-- Asked again and again, a reader gives what it has to give, and then nothing. -/
theorem answers_eq (count : Nat) (reader : NodeReader) :
    answers strings count reader =
      (List.range count).map fun place => (reader.remaining strings)[place]? :=
  asked_eq (next_remaining strings) count reader

end NodeReader

/-- The nodes of steps have the names that the tokens of the steps begin. -/
theorem Node.names_of_steps
    (strings : Bytes)
    (steps : List (Token × Cursor)) :
    (steps.filterMap (ofStep? strings)).map Node.name =
      (steps.map Prod.fst).filterMap Token.begun? := by
  rw [List.map_filterMap, List.filterMap_map]
  congr 1
  funext ⟨token, after⟩
  cases token <;> rfl

/--
The shape of any walk over nodes, whatever the blob holds. A reader gives the nodes, then the
fault if there is one, and nothing behind these, however often it is asked. The tokens of the
cursor up to its end or its first fault begin just these nodes, in this order, and the fault is the
cursor's. The depth of a node is the number of nodes that are open where it begins. A node takes at
least eight octets of the block, the first one is at depth zero, and each other one lies at most one
level below the one before it and at least eight octets behind it. All of them begin at whole cells
inside the block.
-/
theorem Blob.shape_of_nodes (blob : Blob) :
    let block := blob.structureBlock
    let strings := blob.stringsBlock
    let tokens := blob.walk.tokens
    let nodes := blob.nodes.nodes
    (∀ count,
      NodeReader.answers strings count (.start block) =
        (List.range count).map fun place => blob.nodes.items[place]?) ∧
    Cursor.answers strings (tokens.length + 1) (.start block) =
      tokens.map (fun token => .ok (some token)) ++ [Cursor.lastAnswer blob.nodes.fault] ∧
    nodes.map Node.name = tokens.filterMap Token.begun? ∧
    (∀ earlier node later,
      nodes = earlier ++ node :: later →
        ∃ before after behind,
          blob.walk.steps = before ++ (.beginNode node.name, after) :: behind ∧
          before.filterMap (Node.ofStep? strings) = earlier ∧
          openAfter? 0 (before.map Prod.fst) = some node.depth ∧
          after.depth = node.depth + 1 ∧
          after.position = node.offset) ∧
    nodes.length ≤ block.length / 8 ∧
    (∀ first ∈ nodes.head?, first.depth = 0) ∧
    nodes.IsChain Node.Precedes ∧
    ∀ node ∈ nodes,
      node.offset % 4 = 0 ∧
        node.offset ≤ block.length ∧
        node.contents = block.drop node.offset := by
  intro block strings tokens nodes
  have hlaid : Cursor.Laid (.start block) nodes := Cursor.laid_nodes rfl rfl
  refine ⟨fun count => NodeReader.answers_eq count _, Cursor.answers_walk _,
    Node.names_of_steps strings blob.walk.steps, ?_, ?_, ?_, hlaid.chain, ?_⟩
  · intro earlier node later hnodes
    obtain ⟨before, after, behind, hsteps, hearlier, hnode, -⟩ := Node.exists_step_of_nodes hnodes
    obtain ⟨depth, hopen, hbegin⟩ := Cursor.openAfter?_steps rfl rfl hsteps
    have hdepth : after.depth = depth + 1 := (Option.some.inj hbegin).symm
    have hlevel : after.depth - 1 = node.depth := congrArg Node.depth (Option.some.inj hnode)
    have hplace : after.position = node.offset := congrArg Node.offset (Option.some.inj hnode)
    obtain rfl : depth = node.depth := by
      omega
    exact ⟨before, after, behind, hsteps, hearlier, hopen, hdepth, hplace⟩
  · have hroom : 8 * nodes.length ≤ block.length := hlaid.room
    omega
  · intro first hfirst
    exact Nat.le_zero.1 (hlaid.first first hfirst).1
  · intro node hnode
    obtain ⟨haligned, front, hblock, hoffset⟩ := hlaid.inside node hnode
    have hblock : block = front ++ node.contents := hblock
    have hoffset : node.offset = front.length := hoffset.trans (Nat.zero_add _)
    refine ⟨haligned, ?_, ?_⟩
    · rw [hoffset, hblock, List.length_append]
      exact Nat.le_add_right _ _
    · rw [hoffset, hblock, List.drop_left]

end DeviceTree
end FirmwareVariables
