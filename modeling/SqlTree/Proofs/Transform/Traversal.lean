import SqlTree.Proofs.Tree.Form
import SqlTree.Transform.Leaves

/-!
# Traversals that change leaves only

What the traversal of a tree does when all it is given are operations on tables, columns and
arguments: it goes through the parts of a node from left to right and then keeps the node or builds
it anew. The laws are stated once for all forms of nodes. `TransformM.exec_bind_ok` and its
companions take the successful run of such a traversal apart.
-/

namespace SqlTree

structure LeafVisitor (σ : Type) where
  table : Node Table → TransformM σ (Node Table)
  column : Node Column → TransformM σ (Node Column)
  argument : Node Argument → TransformM σ (Node Argument)

/-- The transformer that changes leaves only, and enters the extension nodes of a flavor. -/
def LeafVisitor.transformer {σ : Type} (visitor : LeafVisitor σ) (flavor : Flavor) :
    Transformer σ where
  table := visitor.table
  column := visitor.column
  argument := visitor.argument
  extension := flavor.route

def LeafHooks.visitor {σ : Type} (hooks : LeafHooks σ) : LeafVisitor σ where
  table := .ofLeaf hooks.table
  column := .ofLeaf hooks.column
  argument := .ofLeaf hooks.argument

theorem LeafHooks.transformer_eq {σ : Type} (hooks : LeafHooks σ) (flavor : Flavor) :
    hooks.transformer flavor = hooks.visitor.transformer flavor :=
  rfl

/-- Transforms the parts of a node, from left to right. -/
def Slot.transform {σ : Type} (r : Transformer σ) : (s : Slot) → s.Part → TransformM σ s.Part
  | .unit, _ => pure ()
  | .tree _, t => r.transform t
  | .table, node => r.table node
  | .column, node => r.column node
  | .argument, node => r.argument node
  | .columns, nodes => nodes.mapM r.column
  | .pair s t, parts => do
    let first ← s.transform r parts.1
    let second ← t.transform r parts.2
    return (first, second)

/-- Whether the traversal of a flavor enters the nodes of a form. -/
def Form.entered (flavor : Flavor) : {c : Category} → {s : Slot} → Form c s → Bool
  | _, _, .duplicateKeyUpsert => flavor == .mysql
  | _, _, .bulkInsert => flavor == .mysql
  | _, _, .naturalJoin => flavor == .mysql
  | _, _, .matchAgainst .. => flavor == .mysql
  | _, _, .ilike => flavor == .postgresql
  | _, _, .conflictUpsert => flavor == .postgresql
  | _, _, .foreign _ => false
  | _, _, _ => true

/-- The extension nodes that a flavor enters are those that belong to it. -/
theorem Form.entered_extension (flavor : Flavor) {s : Slot} (form : Form .extension s) (id : NodeId)
    (parts : s.Part) : form.entered flavor = flavor.owns (form.build id parts) := by
  cases form <;> cases flavor <;> rfl

/-- Nodes of other categories are always entered. -/
theorem Form.entered_base (flavor : Flavor) {c : Category} {s : Slot} (form : Form c s)
    (base : c ≠ .extension) : form.entered flavor = true := by
  cases form with
  | duplicateKeyUpsert | bulkInsert | naturalJoin | matchAgainst | ilike | conflictUpsert
  | foreign => exact absurd rfl base
  | _ => rfl

section Laws

variable {σ : Type} (visitor : LeafVisitor σ) (flavor : Flavor)

/-- A frame is put around what has become of its parts. -/
theorem transform_frame {c : Category} {s : Slot} (frame : Frame c s) (parts : s.Part) :
    (visitor.transformer flavor).transform (frame.build parts) = do
      let parts' ← s.transform (visitor.transformer flavor) parts
      return frame.build parts' := by
  cases frame with
  | cons =>
    obtain ⟨head, tail⟩ := parts
    simp only [Slot.transform, bind_assoc, pure_bind, Frame.build, Transformer.transform,
      LeafVisitor.transformer, bind_map_left]
  | _ => rfl

/-- A node that the flavor enters is kept when its parts are the same, and built anew otherwise. -/
theorem transform_form {c : Category} {s : Slot} (form : Form c s) (id : NodeId) (parts : s.Part) :
    (visitor.transformer flavor).transform (form.build id parts) =
      if form.entered flavor then do
        let parts' ← s.transform (visitor.transformer flavor) parts
        Transformer.rebuild (s.same parts' parts) (form.build id parts) (form.build · parts')
      else throw (.unsupportedNode (form.build id parts).kind) := by
  cases form with
  | duplicateKeyUpsert | bulkInsert | naturalJoin | matchAgainst | ilike | conflictUpsert
  | foreign =>
    simp only [Slot.transform, bind_assoc, pure_bind]
    cases flavor <;> rfl
  | _ =>
    simp only [Slot.transform, bind_assoc, pure_bind]
    rfl

end Laws

/-! ### Successful runs -/

namespace TransformM

variable {σ α β : Type}

def exec (op : TransformM σ α) (state : TransformState σ) : Except Error α × TransformState σ :=
  op.run.run state

theorem exec_pure (a : α) (state : TransformState σ) :
    (pure a : TransformM σ α).exec state = (.ok a, state) :=
  rfl

theorem exec_get (state : TransformState σ) :
    (get : TransformM σ (TransformState σ)).exec state = (.ok state, state) :=
  rfl

theorem exec_set (state state' : TransformState σ) :
    (set state' : TransformM σ Unit).exec state = (.ok (), state') :=
  rfl

theorem exec_fresh (state : TransformState σ) :
    (fresh : TransformM σ NodeId).exec state =
      (.ok state.next, { state with next := state.next + 1 }) :=
  rfl

/-- An error keeps the state that the operation has come to. -/
theorem exec_bind (op : TransformM σ α) (rest : α → TransformM σ β) (state : TransformState σ) :
    (op >>= rest).exec state =
      match op.exec state with
      | (.ok a, middle) => (rest a).exec middle
      | (.error error, middle) => (.error error, middle) := by
  change ExceptT.bindCont rest (op.exec state).1 (op.exec state).2 = _
  rcases op.exec state with ⟨result, middle⟩
  cases result <;> rfl

/-- A hook keeps to what it remembers. -/
theorem exec_ofHook (hook : HookM σ α) (state : TransformState σ) :
    (ofHook hook).exec state =
      ((hook.run.run state.memory).1, { state with memory := (hook.run.run state.memory).2 }) := by
  rw [ofHook, exec_bind, exec_get]
  rcases ran : hook.run.run state.memory with ⟨result, memory⟩
  simp only [ran, exec_bind, exec_set]
  cases result <;> rfl

/-- A sequence goes on from where its first half has succeeded. -/
theorem exec_bind_of_ok {op : TransformM σ α} {rest : α → TransformM σ β}
    {start middle : TransformState σ} {a : α} (ran : op.exec start = (.ok a, middle)) :
    (op >>= rest).exec start = (rest a).exec middle := by
  rw [exec_bind, ran]

/-- A sequence succeeds only if both its halves do. -/
theorem exec_bind_ok {op : TransformM σ α} {rest : α → TransformM σ β}
    {state final : TransformState σ} {b : β} (success : (op >>= rest).exec state = (.ok b, final)) :
    ∃ a middle, op.exec state = (.ok a, middle) ∧ (rest a).exec middle = (.ok b, final) := by
  rw [exec_bind] at success
  rcases first : op.exec state with ⟨_ | a, middle⟩
  · rw [first] at success
    cases congrArg Prod.fst success
  · rw [first] at success
    exact ⟨a, middle, rfl, success⟩

end TransformM

end SqlTree
