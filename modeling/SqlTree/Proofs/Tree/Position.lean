import SqlTree.Proofs.Tree.Form

/-!
# Positions in a tree

A position is a path from the root: at each node it says which part to enter. Tables and columns
that a node names are parts like any other, and a list has its head and its tail.

A list that has one item for each leaf of a tree, from left to right, is dealt out along a path:
`Tree.locate` gives the node at a position together with the items of the leaves inside it.
-/

namespace SqlTree

/-- A node without parts, where a transformation can start to change something. -/
inductive Leaf where
  | table (node : Node Table)
  | column (node : Node Column)
  | argument (node : Node Argument)
  deriving DecidableEq, Repr

def Leaf.id : Leaf → NodeId
  | .table node => node.id
  | .column node => node.id
  | .argument node => node.id

abbrev AnyTree := (c : Category) × Tree c

namespace Tree

def leafContribution : Contribution Leaf where
  table node := [.table node]
  column node := [.column node]
  argument node := [.argument node]

def leaves {c : Category} (tree : Tree c) : List Leaf :=
  tree.collect leafContribution

def idContribution : Contribution NodeId where
  table node := [node.id]
  column node := [node.id]
  argument node := [node.id]
  before node := node.id?.toList

def ids {c : Category} (tree : Tree c) : List NodeId :=
  tree.collect idContribution

def parts : {c : Category} → Tree c → List AnyTree
  | _, .column _ => []
  | _, .argument _ => []
  | _, .declare _ expr _ => [⟨_, expr⟩]
  | _, .binary _ _ left right _ => [⟨_, left⟩, ⟨_, right⟩]
  | _, .unary _ _ operand _ => [⟨_, operand⟩]
  | _, .between _ expr lower upper _ => [⟨_, expr⟩, ⟨_, lower⟩, ⟨_, upper⟩]
  | _, .inValues _ left values _ => [⟨_, left⟩, ⟨_, values⟩]
  | _, .inQuery _ left query _ => [⟨_, left⟩, ⟨_, query⟩]
  | _, .existsQuery _ query _ => [⟨_, query⟩]
  | _, .aggregate _ _ operand _ _ => [⟨_, operand⟩]
  | _, .call _ _ arguments _ => [⟨_, arguments⟩]
  | _, .cast _ expr _ => [⟨_, expr⟩]
  | _, .scalarExtension node => [⟨_, node⟩]
  | _, .table _ => []
  | _, .join _ _ left right condition => [⟨_, left⟩, ⟨_, right⟩, ⟨_, condition⟩]
  | _, .subquery _ query _ => [⟨_, query⟩]
  | _, .sourceExtension node => [⟨_, node⟩]
  | _, .select _ columns source condition groupBy having _ orderBy _ =>
    [⟨_, columns⟩, ⟨_, source⟩, ⟨_, condition⟩, ⟨_, groupBy⟩, ⟨_, having⟩, ⟨_, orderBy⟩]
  | _, .union _ left right _ orderBy _ => [⟨_, left⟩, ⟨_, right⟩, ⟨_, orderBy⟩]
  | _, .order _ expr _ => [⟨_, expr⟩]
  | _, .assign _ target value => [⟨_, .column target⟩, ⟨_, value⟩]
  | _, .duplicateKeyUpsert _ into row updates => [⟨_, .table into⟩, ⟨_, row⟩, ⟨_, updates⟩]
  | _, .bulkInsert _ into rows => [⟨_, .table into⟩, ⟨_, rows⟩]
  | _, .naturalJoin _ left right => [⟨_, left⟩, ⟨_, right⟩]
  | _, .matchAgainst _ columns _ _ => [⟨_, columns⟩]
  | _, .ilike _ left right => [⟨_, left⟩, ⟨_, right⟩]
  | _, .conflictUpsert _ into row conflict updates =>
    ⟨_, .table into⟩ :: ⟨_, row⟩ :: (conflict.map fun node => ⟨_, .column node⟩) ++ [⟨_, updates⟩]
  | _, .foreign _ _ => []
  | _, .queryStatement query => [⟨_, query⟩]
  | _, .insert _ into row => [⟨_, .table into⟩, ⟨_, row⟩]
  | _, .insertFromQuery _ into columns query =>
    ⟨_, .table into⟩ :: (columns.map fun node => ⟨_, .column node⟩) ++ [⟨_, query⟩]
  | _, .update _ into assignments condition =>
    [⟨_, .table into⟩, ⟨_, assignments⟩, ⟨_, condition⟩]
  | _, .delete _ into condition => [⟨_, .table into⟩, ⟨_, condition⟩]
  | _, .scalarStatement scalar => [⟨_, scalar⟩]
  | _, .sourceStatement source => [⟨_, source⟩]
  | _, .extensionStatement node => [⟨_, node⟩]
  | _, .nil => []
  | _, .cons head tail => [⟨_, head⟩, ⟨_, tail⟩]
  | _, .absent => []
  | _, .present content => [⟨_, content⟩]

/-- The tree at an index, with its share of items that stand for the leaves of all the trees. -/
def enter {α : Type} : List AnyTree → List α → Nat → Option (AnyTree × List α)
  | [], _, _ => none
  | tree :: _, items, 0 => some (tree, items.take tree.2.leaves.length)
  | tree :: rest, items, i + 1 => enter rest (items.drop tree.2.leaves.length) i

/-- The node at a position, with its share of items that stand for the leaves of the tree. -/
def locate {α : Type} : {c : Category} → Tree c → List α → List Nat → Option (AnyTree × List α)
  | c, tree, items, [] => some (⟨c, tree⟩, items)
  | _, tree, items, i :: path =>
    (enter tree.parts items i).bind fun (part, share) => part.2.locate share path

end Tree

namespace Slot

def leaves (s : Slot) (parts : s.Part) : List Leaf :=
  s.collect Tree.leafContribution parts

def ids (s : Slot) (parts : s.Part) : List NodeId :=
  s.collect Tree.idContribution parts

def trees : (s : Slot) → s.Part → List AnyTree
  | .unit, _ => []
  | .tree c, t => [⟨c, t⟩]
  | .table, node => [⟨_, .table node⟩]
  | .column, node => [⟨_, .column node⟩]
  | .argument, node => [⟨_, .argument node⟩]
  | .columns, nodes => nodes.map fun node => ⟨_, .column node⟩
  | .pair s t, (first, second) => s.trees first ++ t.trees second

end Slot

/-- The parts of a node do not depend on its identity. -/
theorem Form.parts_build {c : Category} {s : Slot} (form : Form c s) (id : NodeId)
    (parts : s.Part) : (form.build id parts).parts = s.trees parts := by
  cases form <;> rfl

/-- Leaves hold a node but have no parts; the other frames have what they hold. -/
theorem Frame.parts_build {c : Category} {s : Slot} (frame : Frame c s) :
    (∀ parts : s.Part, (frame.build parts).parts = []) ∨
      ∀ parts : s.Part, (frame.build parts).parts = s.trees parts := by
  cases frame with
  | column | argument | table => exact .inl fun _ => rfl
  | _ => exact .inr fun _ => rfl

theorem Form.leaves_build {c : Category} {s : Slot} (form : Form c s) (id : NodeId)
    (parts : s.Part) : (form.build id parts).leaves = s.leaves parts := by
  have collected := form.collect_build Tree.leafContribution id parts
  simpa [Contribution.around, Tree.leafContribution, Tree.leaves, Slot.leaves] using collected

theorem Frame.leaves_build {c : Category} {s : Slot} (frame : Frame c s) (parts : s.Part) :
    (frame.build parts).leaves = s.leaves parts := by
  rcases frame.collect_build Tree.leafContribution parts with collected | collected
  · exact collected
  · simpa [Contribution.around, Tree.leafContribution, Tree.leaves, Slot.leaves] using collected

theorem Form.id?_build {c : Category} {s : Slot} (form : Form c s) (id : NodeId)
    (parts : s.Part) : (form.build id parts).id? = some id := by
  cases form <;> rfl

/-- A node comes ahead of the nodes inside it. -/
theorem Form.ids_build {c : Category} {s : Slot} (form : Form c s) (id : NodeId)
    (parts : s.Part) : (form.build id parts).ids = id :: s.ids parts := by
  have collected := form.collect_build Tree.idContribution id parts
  have own : Tree.idContribution.before (form.build id parts) = [id] := by
    simp only [Tree.idContribution, form.id?_build, Option.toList]
  rw [Tree.ids, collected, Contribution.around, own]
  simp [Tree.idContribution, Slot.ids]

/-- Identities are below a bound in a node if they are in its parts and the node's own one is. -/
theorem Form.ids_build_lt {c : Category} {s : Slot} (form : Form c s) {id : NodeId}
    {parts : s.Part} {bound : NodeId} (below : ∀ other ∈ (form.build id parts).ids, other < bound) :
    id < bound ∧ ∀ other ∈ s.ids parts, other < bound := by
  rw [form.ids_build] at below
  exact List.forall_mem_cons.mp below

theorem Frame.ids_build_lt {c : Category} {s : Slot} (frame : Frame c s) {parts : s.Part}
    {bound : NodeId} (below : ∀ other ∈ (frame.build parts).ids, other < bound) :
    ∀ other ∈ s.ids parts, other < bound := by
  intro other member
  apply below
  rcases frame.collect_build Tree.idContribution parts with collected | collected
  · rw [Tree.ids, collected]
    exact member
  · rw [Tree.ids, collected, Contribution.around]
    exact List.mem_append_left _ (List.mem_append_right _ member)

end SqlTree
