import SqlTree.Transform.Walk

/-!
# Transformations of leaves

The usual transformations change tables, columns and arguments only. Their hooks say what becomes of
a leaf; they do not choose identities, so what they do cannot depend on how many nodes have been
built before.
-/

namespace SqlTree

inductive Change (α : Type) where
  /-- It stays the same node. -/
  | keep
  /-- A new node takes its place. -/
  | renew (content : α)
  /-- A node that is already there takes its place. -/
  | replace (node : Node α)
  deriving DecidableEq, Repr

/-- Operations of a hook on a leaf: it remembers things, and may fail. -/
abbrev HookM (σ : Type) := ExceptT Error (StateM σ)

def TransformM.ofHook {σ α : Type} (hook : HookM σ α) : TransformM σ α := do
  let state ← get
  let (result, memory) := hook.run.run state.memory
  set { state with memory }
  match result with
  | .ok a => pure a
  | .error error => throw error

/-- Carries out what a hook says about a leaf. -/
def Change.apply {σ α : Type} (node : Node α) : Change α → TransformM σ (Node α)
  | .keep => pure node
  | .renew content => return ⟨← TransformM.fresh, content⟩
  | .replace other => pure other

structure LeafHooks (σ : Type) where
  table : Node Table → HookM σ (Change Table) := fun _ => pure .keep
  column : Node Column → HookM σ (Change Column) := fun _ => pure .keep
  argument : Node Argument → HookM σ (Change Argument) := fun _ => pure .keep

def TransformM.ofLeaf {σ α : Type} (hook : Node α → HookM σ (Change α)) (node : Node α) :
    TransformM σ (Node α) := do
  (← TransformM.ofHook (hook node)).apply node

/-- A transformer that changes leaves only, and enters the extension nodes of a flavor. -/
def LeafHooks.transformer {σ : Type} (hooks : LeafHooks σ) (flavor : Flavor) : Transformer σ where
  table := .ofLeaf hooks.table
  column := .ofLeaf hooks.column
  argument := .ofLeaf hooks.argument
  extension := flavor.route

end SqlTree
