import FirmwareVariables.Proofs.DeviceTree.Answers
import FirmwareVariables.Proofs.DeviceTree.Strings

/-!
# What a writer writes

Every step but an empty one is a token of the walk over the written blob. The steps are followed
one by one: `spells_take` says what one of them adds to the structure block, for any strings
block that holds the names placed so far, and `spells_takeAll` what all of them add.

The main statement is `answers_write`: the blob of any steps is accepted, and its cursor answers
the steps in their order, then the ends of the nodes left open, then the end of the block. The
steps must not end a node when none is open, their names and values must be writable, where a
text counts with its NUL, and the blob must be short enough for the cells of its header.
`read_write` says the same of a walk.
-/

namespace FirmwareVariables
namespace DeviceTree

def WriteStep.token? : WriteStep → Option Token
  | beginNode name => some (.beginNode name)
  | endNode => some .endNode
  | property name value => some (.property ⟨name, value⟩)
  | text name value => some (.property ⟨name, Utf8.encode value ++ [0]⟩)
  | number name value => some (.property ⟨name, Bytes.ofCell value⟩)
  | nop => none

/-- The tokens of steps, and the ends of the nodes that they leave open. -/
def writtenTokens (steps : List WriteStep) : List Token :=
  steps.filterMap WriteStep.token? ++
    List.replicate (Writer.empty.takeAll steps).2.openNodes .endNode

/-- Names without NULs and values that are not too large can be written and read back. -/
def Token.Writable : Token → Prop
  | .beginNode name => (0 : UInt8) ∉ Utf8.encode name
  | .endNode => True
  | .property held =>
      (0 : UInt8) ∉ Utf8.encode held.name ∧ held.value.length ≤ maximalPropertySize

instance : DecidablePred Token.Writable
  | .beginNode name => inferInstanceAs (Decidable ((0 : UInt8) ∉ Utf8.encode name))
  | .endNode => inferInstanceAs (Decidable True)
  | .property held =>
      inferInstanceAs (Decidable ((0 : UInt8) ∉ Utf8.encode held.name ∧
        held.value.length ≤ maximalPropertySize))

/-- How many nodes tokens leave open, if none of them ends a node when no node is open. -/
def openAfter? : Nat → List Token → Option Nat
  | depth, [] => some depth
  | depth, .beginNode _ :: tokens => openAfter? (depth + 1) tokens
  | depth + 1, .endNode :: tokens => openAfter? depth tokens
  | 0, .endNode :: _ => none
  | depth, .property _ :: tokens => openAfter? depth tokens

theorem openAfter?_property (depth : Nat) (property : Property) (tokens : List Token) :
    openAfter? depth (.property property :: tokens) = openAfter? depth tokens := by
  cases depth <;> rfl

/-- The end of a node closes one. -/
theorem openAfter?_endNode_eq_some_iff {depth depthAfter : Nat} :
    openAfter? depth [.endNode] = some depthAfter ↔ depth = depthAfter + 1 := by
  cases depth with
  | zero => simp [openAfter?]
  | succ depth => simp [openAfter?]

theorem openAfter?_append (depth : Nat) (tokens later : List Token) :
    openAfter? depth (tokens ++ later) =
      (openAfter? depth tokens).bind (openAfter? · later) := by
  fun_induction openAfter? depth tokens with
  | case1 depth => rfl
  | case2 depth name tokens ih => exact ih
  | case3 depth tokens ih => exact ih
  | case4 tokens => rfl
  | case5 depth property tokens ih =>
      cases depth <;> exact ih

theorem filterMap_cons_toList {α β : Type} (f : α → Option β) (first : α) (later : List α) :
    (first :: later).filterMap f = (f first).toList ++ later.filterMap f := by
  rw [List.filterMap_cons]
  cases f first <;> rfl

section Blocks

variable {strings octets : Bytes} {tokens : List Token} {depth : Nat}

/-- A writer counts the open nodes as its tokens do. -/
theorem openNodes_take
    {writer : Writer} {step : WriteStep}
    (hopen : openAfter? writer.openNodes step.token?.toList = some depth) :
    (writer.take step).2.openNodes = depth := by
  cases step with
  | endNode =>
      rcases writer with ⟨block, _ | openNodes⟩
      · cases hopen
      · cases hopen
        rfl
  | _ =>
      cases hopen
      rfl

theorem openNodes_takeAll
    {writer : Writer} {steps : List WriteStep}
    (hopen : openAfter? writer.openNodes (steps.filterMap WriteStep.token?) = some depth) :
    (writer.takeAll steps).2.openNodes = depth := by
  induction steps generalizing writer with
  | nil =>
      cases hopen
      rfl
  | cons step steps ih =>
      rw [filterMap_cons_toList, openAfter?_append, Option.bind_eq_some_iff] at hopen
      obtain ⟨between, hstep, hsteps⟩ := hopen
      rw [← openNodes_take hstep] at hsteps
      exact ih hsteps

/-- No step takes a name out of the strings block, or leaves one without a NUL. -/
theorem stringsBlock_take (writer : Writer) (step : WriteStep) :
    writer.stringsBlock <+: (writer.take step).2.stringsBlock ∧
      (NulEnded writer.stringsBlock → NulEnded (writer.take step).2.stringsBlock) := by
  cases step with
  | property name value => exact placeName_extends name writer.stringsBlock
  | text name value => exact placeName_extends name writer.stringsBlock
  | number name value => exact placeName_extends name writer.stringsBlock
  | beginNode name => exact ⟨List.prefix_rfl, id⟩
  | endNode => exact ⟨List.prefix_rfl, id⟩
  | nop => exact ⟨List.prefix_rfl, id⟩

theorem stringsBlock_takeAll (writer : Writer) (steps : List WriteStep) :
    writer.stringsBlock <+: (writer.takeAll steps).2.stringsBlock := by
  induction steps generalizing writer with
  | nil => exact List.prefix_rfl
  | cons step steps ih => exact (stringsBlock_take writer step).1.trans (ih (writer.take step).2)

theorem spells_property
    {writer : Writer} {name : String} {value : Bytes}
    (hended : NulEnded writer.stringsBlock)
    (hwritable : Token.Writable (.property ⟨name, value⟩))
    (hstrings : (writer.property name value).2.stringsBlock <+: strings)
    (hshort : strings.length < 4294967296)
    (hlater : Spells strings depth octets tokens) :
    Spells strings depth ((writer.property name value).1 ++ octets)
      (.property ⟨name, value⟩ :: tokens) := by
  obtain ⟨hname, hsize⟩ := hwritable
  have hholds := (placeName_holds hended name).mono hstrings
  have hoffset := Nat.lt_trans hholds.offset_lt hshort
  have hspelled := Spells.property ⟨name, value⟩ _
    (List.replicate (Bytes.padding value.length) 0) hsize hoffset (hholds.nameAt_eq hname)
    List.length_replicate hlater
  simpa only [Writer.property, Bytes.padded, List.append_assoc] using hspelled

/-- What one step writes in front of what spells the tokens behind it. -/
theorem spells_take
    {writer : Writer} {step : WriteStep}
    (hended : NulEnded writer.stringsBlock)
    (hwritable : ∀ token, step.token? = some token → token.Writable)
    (hopen : openAfter? writer.openNodes step.token?.toList = some depth)
    (hstrings : (writer.take step).2.stringsBlock <+: strings)
    (hshort : strings.length < 4294967296)
    (hlater : Spells strings depth octets tokens) :
    Spells strings writer.openNodes ((writer.take step).1 ++ octets)
      (step.token?.toList ++ tokens) := by
  cases step with
  | beginNode name =>
      cases hopen
      have hspelled := Spells.beginNode name
        (List.replicate (Bytes.padding ((Utf8.encode name).length + 1)) 0)
        (hwritable _ rfl) List.length_replicate hlater
      simpa only [Writer.take, WriteStep.token?, Option.toList_some, Bytes.padded,
        List.append_assoc, List.cons_append, List.nil_append, List.length_append,
        List.length_singleton] using hspelled
  | endNode =>
      rcases writer with ⟨block, _ | openNodes⟩
      · cases hopen
      · cases hopen
        exact hlater.endNode
  | property name value =>
      cases hopen
      exact spells_property hended (hwritable _ rfl) hstrings hshort hlater
  | text name value =>
      cases hopen
      exact spells_property hended (hwritable _ rfl) hstrings hshort hlater
  | number name value =>
      cases hopen
      exact spells_property hended (hwritable _ rfl) hstrings hshort hlater
  | nop =>
      cases hopen
      exact hlater.nop

/-- What steps write in front of what spells the tokens behind them. -/
theorem spells_takeAll
    {writer : Writer} {steps : List WriteStep}
    (hended : NulEnded writer.stringsBlock)
    (hwritable : ∀ token ∈ steps.filterMap WriteStep.token?, token.Writable)
    (hopen : openAfter? writer.openNodes (steps.filterMap WriteStep.token?) = some depth)
    (hstrings : (writer.takeAll steps).2.stringsBlock <+: strings)
    (hshort : strings.length < 4294967296)
    (hlater : Spells strings depth octets tokens) :
    Spells strings writer.openNodes ((writer.takeAll steps).1 ++ octets)
      (steps.filterMap WriteStep.token? ++ tokens) := by
  induction steps generalizing writer with
  | nil =>
      cases hopen
      exact hlater
  | cons step steps ih =>
      rw [filterMap_cons_toList] at hwritable hopen ⊢
      rw [openAfter?_append, Option.bind_eq_some_iff] at hopen
      obtain ⟨between, hstep, hsteps⟩ := hopen
      rw [← openNodes_take hstep] at hsteps
      have hbehind := ih ((stringsBlock_take writer step).2 hended)
        (fun token hmem => hwritable token (List.mem_append_right _ hmem)) hsteps hstrings
      have hnames := (stringsBlock_takeAll (writer.take step).2 steps).trans hstrings
      rw [openNodes_take hstep] at hbehind
      have hspelled := spells_take hended
        (fun token htoken => hwritable token (List.mem_append_left _ (by simp [htoken])))
        hstep hnames hshort hbehind
      simpa only [Writer.takeAll, List.append_assoc] using hspelled

/-- The ends of the open nodes, and then the end of the block. -/
theorem spells_ends (count : Nat) :
    Spells strings count
      ((List.replicate count (Bytes.ofCell Marker.endNode.code)).flatten ++
        Bytes.ofCell Marker.finish.code)
      (List.replicate count .endNode) := by
  induction count with
  | zero => exact .finish []
  | succ count ih =>
      rw [List.replicate_succ, List.replicate_succ, List.flatten_cons, List.append_assoc]
      exact ih.endNode

end Blocks

/-- The structure block of a written blob spells the tokens of its steps. -/
theorem spells_write
    {steps : List WriteStep} {depth : Nat}
    (hwritable : ∀ token ∈ steps.filterMap WriteStep.token?, token.Writable)
    (hopen : openAfter? 0 (steps.filterMap WriteStep.token?) = some depth)
    (hshort : (Writer.empty.takeAll steps).2.stringsBlock.length < 4294967296) :
    Spells (Writer.empty.takeAll steps).2.stringsBlock 0
      ((Writer.empty.takeAll steps).1 ++ (Writer.empty.takeAll steps).2.closing)
      (writtenTokens steps) := by
  have hdepth : (Writer.empty.takeAll steps).2.openNodes = depth := openNodes_takeAll hopen
  subst hdepth
  exact spells_takeAll nulEnded_nil hwritable hopen List.prefix_rfl hshort (spells_ends _)

/-- The blocks stand behind the header and the reserved memory. -/
theorem assemble_eq (structureBlock stringsBlock : Bytes) :
    ∃ front,
      front.length = headerSize + reservationMapSize ∧
      assemble structureBlock stringsBlock = front ++ (structureBlock ++ stringsBlock) := by
  refine ⟨_, ?_, List.append_assoc _ _ _⟩
  simp [headerSize, reservationMapSize]

theorem length_assemble (structureBlock stringsBlock : Bytes) :
    (assemble structureBlock stringsBlock).length =
      headerSize + reservationMapSize + structureBlock.length + stringsBlock.length := by
  obtain ⟨front, hfront, hassemble⟩ := assemble_eq structureBlock stringsBlock
  rw [hassemble, List.length_append, List.length_append, hfront,
    Nat.add_assoc _ _ stringsBlock.length]

/-- The header in front of two blocks. -/
def headerOver (structureBlock stringsBlock : Bytes) : Header where
  totalSize := headerSize + reservationMapSize + structureBlock.length + stringsBlock.length
  structureOffset := headerSize + reservationMapSize
  stringsOffset := headerSize + reservationMapSize + structureBlock.length
  reservationMapOffset := headerSize
  version := formatVersion
  lastCompatible := formatVersion - 1
  bootCpu := 0
  stringsSize := stringsBlock.length
  structureSize := structureBlock.length

theorem read?_assemble
    {structureBlock stringsBlock : Bytes}
    (hshort : (assemble structureBlock stringsBlock).length < 4294967296) :
    Header.read? (assemble structureBlock stringsBlock) =
      some (magicNumber, headerOver structureBlock stringsBlock) := by
  rw [length_assemble] at hshort
  simp only [headerSize, reservationMapSize] at hshort
  simp only [assemble, List.flatMap_cons, List.flatMap_nil, List.append_assoc, Header.read?,
    Bytes.takeCell?_ofCell_append, Option.bind_eq_bind, Option.bind_some, headerSize,
    reservationMapSize, formatVersion, magicNumber]
  simp [headerOver, headerSize, reservationMapSize, formatVersion]
  omega

/-- Two blocks that are put together are found again. -/
theorem ofBytes_assemble
    {structureBlock stringsBlock : Bytes}
    (hshort : (assemble structureBlock stringsBlock).length < 4294967296) :
    Blob.ofBytes (assemble structureBlock stringsBlock) =
      .ok {
        header := headerOver structureBlock stringsBlock
        bytes := assemble structureBlock stringsBlock
        structureBlock
        stringsBlock } := by
  have hlength := length_assemble structureBlock stringsBlock
  obtain ⟨front, hfront, hassemble⟩ := assemble_eq structureBlock stringsBlock
  have hstructure : Bytes.slice? (assemble structureBlock stringsBlock)
      (headerSize + reservationMapSize) structureBlock.length = some structureBlock := by
    rw [hassemble, ← hfront]
    exact Bytes.slice?_append front structureBlock stringsBlock
  have hstrings : Bytes.slice? (assemble structureBlock stringsBlock)
      (headerSize + reservationMapSize + structureBlock.length) stringsBlock.length =
        some stringsBlock := by
    have hslice := Bytes.slice?_append (front ++ structureBlock) stringsBlock []
    rw [List.append_nil, List.append_assoc, List.length_append] at hslice
    rw [hassemble, ← hfront]
    exact hslice
  have htake : (assemble structureBlock stringsBlock).take
      (headerSize + reservationMapSize + structureBlock.length + stringsBlock.length) =
        assemble structureBlock stringsBlock := by
    rw [← hlength, List.take_length]
  have hsize : ¬ (headerSize + reservationMapSize + structureBlock.length +
        stringsBlock.length < headerSize ∨
      (assemble structureBlock stringsBlock).length <
        headerSize + reservationMapSize + structureBlock.length + stringsBlock.length) := by
    omega
  have hoffset : ¬ headerSize + reservationMapSize < headerSize := by
    omega
  have hversion : ¬ (formatVersion < formatVersion ∨ formatVersion < formatVersion - 1) := by
    decide
  simp only [Blob.ofBytes, read?_assemble hshort, headerOver, ne_eq, not_true_eq_false,
    hversion, hsize, hoffset, htake, hstructure, hstrings, ↓reduceIte]

/-- The blob of steps is accepted, and the walk over it meets what the steps wrote. -/
theorem read_write
    {steps : List WriteStep} {depth : Nat}
    (hwritable : ∀ token ∈ steps.filterMap WriteStep.token?, token.Writable)
    (hopen : openAfter? 0 (steps.filterMap WriteStep.token?) = some depth)
    (hshort : (write steps).length < 4294967296) :
    ∃ blob,
      Blob.ofBytes (write steps) = .ok blob ∧
      blob.header.totalSize = (write steps).length ∧
      blob.walk.tokens = writtenTokens steps ∧
      blob.walk.fault = none := by
  have hlength := length_assemble
    ((Writer.empty.takeAll steps).1 ++ (Writer.empty.takeAll steps).2.closing)
    (Writer.empty.takeAll steps).2.stringsBlock
  have hnames : (Writer.empty.takeAll steps).2.stringsBlock.length < 4294967296 := by
    refine Nat.lt_of_le_of_lt ?_ hshort
    rw [write, hlength]
    exact Nat.le_add_left _ _
  have hspelled := spells_write hwritable hopen hnames
  exact ⟨_, ofBytes_assemble hshort, hlength.symm, Cursor.walk_of_spells hspelled rfl⟩

/--
What was written is answered. The blob of any steps is accepted, with its own length as its
size, and its cursor answers the tokens of the steps in their order, an end for each of the nodes
left open, and then the end of the block.
-/
theorem answers_write
    {steps : List WriteStep} {depth : Nat}
    (hwritable : ∀ token ∈ steps.filterMap WriteStep.token?, token.Writable)
    (hopen : openAfter? 0 (steps.filterMap WriteStep.token?) = some depth)
    (hshort : (write steps).length < 4294967296) :
    let tokens := steps.filterMap WriteStep.token? ++ List.replicate depth .endNode
    ∃ blob,
      Blob.ofBytes (write steps) = .ok blob ∧
      blob.header.totalSize = (write steps).length ∧
      Cursor.answers blob.stringsBlock (tokens.length + 1) (.start blob.structureBlock) =
        Token.allOf tokens := by
  intro tokens
  obtain ⟨blob, haccepted, hsize, hwalk⟩ := read_write hwritable hopen hshort
  have hdepth : (Writer.empty.takeAll steps).2.openNodes = depth := openNodes_takeAll hopen
  rw [writtenTokens, hdepth] at hwalk
  exact ⟨blob, haccepted, hsize, (Cursor.answers_eq_allOf_iff tokens _).2 hwalk⟩

/-- Two roots and a property outside of them, with two nodes left open. -/
def scatteredSteps : List WriteStep :=
  [.property "stray" [1, 2, 3], .beginNode "", .nop, .number "reg" 258, .beginNode "ports",
    .text "status" "ok", .endNode, .endNode, .nop, .beginNode "other", .property "reg" [],
    .beginNode "deep"]

theorem answers_write_scattered :
    (openAfter? 0 (scatteredSteps.filterMap WriteStep.token?) = some 2 ∧
        (write scatteredSteps).length < 4294967296) ∧
      ∃ blob,
        Blob.ofBytes (write scatteredSteps) = .ok blob ∧
        blob.header.totalSize = (write scatteredSteps).length ∧
        Cursor.answers blob.stringsBlock 13 (.start blob.structureBlock) =
          Token.allOf
            [.property ⟨"stray", [1, 2, 3]⟩, .beginNode "", .property ⟨"reg", [0, 0, 1, 2]⟩,
              .beginNode "ports", .property ⟨"status", [0x6F, 0x6B, 0]⟩, .endNode, .endNode,
              .beginNode "other", .property ⟨"reg", []⟩, .beginNode "deep", .endNode,
              .endNode] := by
  have hwritable : ∀ token ∈ scatteredSteps.filterMap WriteStep.token?, token.Writable := by
    decide
  have hopen : openAfter? 0 (scatteredSteps.filterMap WriteStep.token?) = some 2 := by
    decide
  have hshort : (write scatteredSteps).length < 4294967296 := by
    decide +kernel
  exact ⟨⟨hopen, hshort⟩, answers_write hwritable hopen hshort⟩

end DeviceTree
end FirmwareVariables
