import SqlTree.Error
import SqlTree.Tree.Identity
import SqlTree.Tree.Kind

/-!
# Transformers

A transformer is a record of hooks that are called while a tree is traversed from left to right.
Each hook may keep what it is given, replace it, or fail. A hook around a node receives the default
traversal of that node and decides whether to run it.
-/

namespace SqlTree

/-- The state of a transformation: the next unused identity, and what the hooks remember. -/
structure TransformState (σ : Type) where
  next : NodeId
  memory : σ
  deriving DecidableEq, Repr

/-- Operations of a transformation. What the hooks remember survives a failure. -/
abbrev TransformM (σ : Type) := ExceptT Error (StateM (TransformState σ))

namespace TransformM

/-- Takes an identity that no node has yet. -/
def fresh {σ : Type} : TransformM σ NodeId := do
  let state ← get
  set { state with next := state.next + 1 }
  return state.next

end TransformM

structure Transformer (σ : Type) where
  /-- Called for the table of a row source or a statement. -/
  table : Node Table → TransformM σ (Node Table) := pure
  /-- Called for every column: scalars, targets of assignments, columns of inserts and conflicts. -/
  column : Node Column → TransformM σ (Node Column) := pure
  /-- Called for every bound value. -/
  argument : Node Argument → TransformM σ (Node Argument) := pure
  /-- Called around every extension node. Unless it says otherwise, such a node is refused. -/
  extension : Extension → TransformM σ Extension → TransformM σ Extension :=
    fun node _ => throw (.unsupportedNode node.kind)
  /-- Called around every scalar, source, query and statement, whatever its kind. -/
  position : {c : Category} → Tree c → TransformM σ (Tree c) → TransformM σ (Tree c) :=
    fun _ walk => walk
  /-- Called around every node that has parts, inside `position` and `extension`; not around
  assignments. -/
  node : {c : Category} → Tree c → TransformM σ (Tree c) → TransformM σ (Tree c) :=
    fun _ walk => walk
  /-- Called around every member of a list; a member can be left out. -/
  member : {c : Category} → Tree c → TransformM σ (Tree c) → TransformM σ (Option (Tree c)) :=
    fun _ walk => some <$> walk

end SqlTree
