import FirmwareVariables.Proofs.DeviceTree.Outline
import FirmwareVariables.Proofs.DeviceTree.Written

/-!
# Trees

A forest is an ordered list of trees whose nodes have properties and, behind these, children.
Its tokens are what a walk meets when the properties of each node come before its children, and
its outlines are its nodes in preorder.

The main statement, `Forest.read`, says that a blob whose steps write a forest is accepted and
that the nodes found in it are those of the forest, each with exactly its properties.
-/

namespace FirmwareVariables
namespace DeviceTree

/-- No tree, or a tree and the trees behind it. -/
inductive Forest where
  | empty
  | node (name : String) (properties : List Property) (children siblings : Forest)
deriving DecidableEq, Repr

namespace Forest

def tokens : Forest → List Token
  | empty => []
  | node name properties children siblings =>
      .beginNode name :: (properties.map .property ++ (children.tokens ++
        .endNode :: siblings.tokens))

/-- The nodes in preorder. -/
def outlines : Forest → List Outline
  | empty => []
  | node name properties children siblings =>
      ⟨name, properties⟩ :: (children.outlines ++ siblings.outlines)

section Properties

variable (properties : List Property) (later : List Token)

/-- Properties begin and end no node. -/
theorem openAfter?_properties (depth : Nat) :
    openAfter? depth (properties.map .property ++ later) = openAfter? depth later := by
  induction properties with
  | nil => rfl
  | cons property properties ih =>
      cases depth <;> exact ih

theorem outlines_properties :
    DeviceTree.outlines (properties.map .property ++ later) = DeviceTree.outlines later := by
  induction properties with
  | nil => rfl
  | cons property properties ih => exact ih

theorem leading_properties :
    leading (properties.map .property ++ later) = properties ++ leading later := by
  induction properties with
  | nil => rfl
  | cons property properties ih => exact congrArg (List.cons property) ih

end Properties

/-- A forest ends every node that it begins. -/
theorem openAfter?_tokens (forest : Forest) (depth : Nat) :
    openAfter? depth forest.tokens = some depth := by
  induction forest generalizing depth with
  | empty => rfl
  | node name properties children siblings ihChildren ihSiblings =>
      simp only [tokens, openAfter?]
      rw [openAfter?_properties, openAfter?_append, ihChildren (depth + 1)]
      exact ihSiblings depth

/-- Behind the properties of a node stands a child or the end of the node. -/
theorem leading_children (children : Forest) (later : List Token) :
    leading (children.tokens ++ .endNode :: later) = [] := by
  cases children <;> rfl

/-- The outlines of a forest's tokens are its nodes in preorder. -/
theorem outlines_tokens_append (forest : Forest) (later : List Token) :
    DeviceTree.outlines (forest.tokens ++ later) =
      forest.outlines ++ DeviceTree.outlines later := by
  induction forest generalizing later with
  | empty => rfl
  | node name properties children siblings ihChildren ihSiblings =>
      have hleading := leading_properties properties
        (children.tokens ++ .endNode :: (siblings.tokens ++ later))
      rw [leading_children, List.append_nil] at hleading
      simp only [tokens, List.cons_append, List.append_assoc, DeviceTree.outlines,
        outlines_properties, hleading, ihChildren, ihSiblings, outlines]

theorem outlines_tokens (forest : Forest) :
    DeviceTree.outlines forest.tokens = forest.outlines := by
  have houtlines := outlines_tokens_append forest []
  simpa only [List.append_nil, DeviceTree.outlines] using houtlines

/-- Steps write a forest if their tokens are those of the forest. -/
def WrittenBy (forest : Forest) (steps : List WriteStep) : Prop :=
  writtenTokens steps = forest.tokens

instance (forest : Forest) (steps : List WriteStep) : Decidable (forest.WrittenBy steps) :=
  inferInstanceAs (Decidable (writtenTokens steps = forest.tokens))

/-- Steps that write a forest end no node that is not open. -/
theorem WrittenBy.openAfter?_steps
    {forest : Forest} {steps : List WriteStep}
    (h : forest.WrittenBy steps) :
    ∃ depth, openAfter? 0 (steps.filterMap WriteStep.token?) = some depth := by
  have hclosed := openAfter?_tokens forest 0
  rw [← h, writtenTokens, openAfter?_append, Option.bind_eq_some_iff] at hclosed
  obtain ⟨depth, hdepth, -⟩ := hclosed
  exact ⟨depth, hdepth⟩

/-- A forest whose names and values can be written. -/
def Writable (forest : Forest) : Prop :=
  ∀ token ∈ forest.tokens, token.Writable

instance (forest : Forest) : Decidable forest.Writable :=
  inferInstanceAs (Decidable (∀ token ∈ forest.tokens, token.Writable))

/-- The blob of a forest is accepted, and its nodes are those of the forest in preorder. -/
theorem read
    {forest : Forest} {steps : List WriteStep}
    (hwritten : forest.WrittenBy steps)
    (hwritable : forest.Writable)
    (hshort : (write steps).length < 4294967296) :
    ∃ blob,
      Blob.ofBytes (write steps) = .ok blob ∧
      blob.nodes.nodes.map Node.outline = forest.outlines ∧
      blob.nodes.fault = none := by
  have hsteps : ∀ token ∈ steps.filterMap WriteStep.token?, token.Writable := by
    intro token hmem
    apply hwritable
    rw [← hwritten]
    exact List.mem_append_left _ hmem
  obtain ⟨depth, hopen⟩ := hwritten.openAfter?_steps
  obtain ⟨blob, haccepted, -, htokens, hfault⟩ := read_write hsteps hopen hshort
  refine ⟨blob, haccepted, ?_, hfault⟩
  rw [Blob.outline_nodes, htokens, hwritten, outlines_tokens]

end Forest
end DeviceTree
end FirmwareVariables
