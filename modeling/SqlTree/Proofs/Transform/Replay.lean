import SqlTree.Proofs.Transform.Traversal
import SqlTree.Proofs.Tree.Survey

/-!
# Traversals as loops

The traversal of a tree by hooks on its leaves is a deep recursion, through lists, optional nodes
and the extension nodes of a flavor. Seen from the hooks it is a loop: they are called one after the
other for the leaves of the tree, from left to right, and the first failure ends it. `Tree.visits`
is the list that the loop runs over and `LeafHooks.replay` the loop. A node that the flavor does not
own stands in the list as a failure of its own, and nothing inside it does.
-/

namespace SqlTree

/-- What a traversal comes to: a leaf, or an extension node that it cannot enter. -/
inductive Visit where
  | leaf (leaf : Leaf)
  | unsupported (kind : String)
  deriving DecidableEq, Repr

/-- What a traversal comes to at a node, given what it comes to in the parts. -/
def Flavor.visitsAt (flavor : Flavor) : {c : Category} → Tree c → List Visit → List Visit
  | _, .table node, _ => [.leaf (.table node)]
  | _, .column node, _ => [.leaf (.column node)]
  | _, .argument node, _ => [.leaf (.argument node)]
  | .extension, node, inside => if flavor.owns node then inside else [.unsupported node.kind]
  | _, _, inside => inside

/-- All that the traversal of a flavor comes to in a tree. The order is that of `Tree.parts`: a
select has its columns first, then source, condition, groups, condition on groups and order; a
statement has its table first; an assignment has its column ahead of its value. -/
def Tree.visits (flavor : Flavor) {c : Category} (tree : Tree c) : List Visit :=
  tree.survey flavor.visitsAt

def Slot.visits (flavor : Flavor) (s : Slot) (parts : s.Part) : List Visit :=
  s.survey flavor.visitsAt parts

section Parts

variable (flavor : Flavor)

theorem Slot.visits_tree {c : Category} (tree : Tree c) :
    (Slot.tree c).visits flavor tree = tree.visits flavor :=
  Slot.survey_tree _ tree

theorem Slot.visits_table (node : Node Table) :
    Slot.table.visits flavor node = [.leaf (.table node)] :=
  (List.append_nil _).trans (Tree.survey_eq _ (.table node))

theorem Slot.visits_column (node : Node Column) :
    Slot.column.visits flavor node = [.leaf (.column node)] :=
  (List.append_nil _).trans (Tree.survey_eq _ (.column node))

theorem Slot.visits_argument (node : Node Argument) :
    Slot.argument.visits flavor node = [.leaf (.argument node)] :=
  (List.append_nil _).trans (Tree.survey_eq _ (.argument node))

theorem Slot.visits_moreColumns (node : Node Column) (nodes : List (Node Column)) :
    Slot.columns.visits flavor (node :: nodes) =
      [.leaf (.column node)] ++ Slot.columns.visits flavor nodes :=
  congrArg (· ++ Slot.columns.visits flavor nodes) (Tree.survey_eq _ (.column node))

theorem Slot.visits_pair (s t : Slot) (first : s.Part) (second : t.Part) :
    (Slot.pair s t).visits flavor (first, second) =
      s.visits flavor first ++ t.visits flavor second :=
  Slot.survey_pair _ s t first second

theorem Frame.visits_build {c : Category} {s : Slot} (frame : Frame c s)
    (parts : s.Part) : (frame.build parts).visits flavor = s.visits flavor parts := by
  cases frame with
  | column | argument | table => exact (List.append_nil _).symm
  | _ =>
    rw [Tree.visits, Tree.survey_eq]
    rfl

/-- A node that the flavor does not own hides everything inside it. -/
theorem Form.visits_build {c : Category} {s : Slot} (form : Form c s) (id : NodeId)
    (parts : s.Part) :
    (form.build id parts).visits flavor =
      if form.entered flavor then s.visits flavor parts
      else [.unsupported (form.build id parts).kind] := by
  rw [Tree.visits, form.survey_build]
  by_cases extension : c = .extension
  · subst extension
    rw [form.entered_extension flavor id parts]
    cases form <;> rfl
  · rw [form.entered_base flavor extension]
    cases form with
    | duplicateKeyUpsert | bulkInsert | naturalJoin | matchAgainst | ilike | conflictUpsert
    | foreign => exact absurd rfl extension
    | _ => rfl

end Parts

/-! ### The loop -/

def errorOf {α : Type} : Except Error α → Option Error
  | .ok _ => none
  | .error error => some error

/-- The error that a hook fails with, if it does, and what is remembered then. -/
def HookM.outcome {σ α : Type} (hook : HookM σ α) (memory : σ) : Option Error × σ :=
  (errorOf (hook.run.run memory).1, (hook.run.run memory).2)

namespace LeafHooks

variable {σ : Type} (hooks : LeafHooks σ)

def call : Visit → σ → Option Error × σ
  | .leaf (.table node), memory => (hooks.table node).outcome memory
  | .leaf (.column node), memory => (hooks.column node).outcome memory
  | .leaf (.argument node), memory => (hooks.argument node).outcome memory
  | .unsupported kind, memory => (some (.unsupportedNode kind), memory)

/-- Calls the hooks one after the other, up to the first error. -/
def replay : List Visit → σ → Option Error × σ
  | [], memory => (none, memory)
  | visit :: rest, memory =>
    match hooks.call visit memory with
    | (none, memory') => replay rest memory'
    | (some error, memory') => (some error, memory')

theorem replay_singleton (visit : Visit) (memory : σ) :
    hooks.replay [visit] memory = hooks.call visit memory := by
  rw [replay]
  rcases hooks.call visit memory with ⟨_ | error, memory'⟩ <;> rfl

/-- Where the first part of the list ends without an error, the loop goes on with the second. -/
theorem replay_append (front back : List Visit) (memory : σ) :
    hooks.replay (front ++ back) memory =
      match hooks.replay front memory with
      | (none, memory') => hooks.replay back memory'
      | (some error, memory') => (some error, memory') := by
  induction front generalizing memory with
  | nil => rfl
  | cons visit rest ih =>
    rw [List.cons_append, replay, replay]
    rcases hooks.call visit memory with ⟨_ | error, memory'⟩
    · exact ih memory'
    · rfl

/-- The loop does not go on behind the first error. -/
theorem replay_of_call_error {front rest : List Visit} {visit : Visit} {memory before after : σ}
    {error : Error} (passed : hooks.replay front memory = (none, before))
    (failed : hooks.call visit before = (some error, after)) :
    hooks.replay (front ++ visit :: rest) memory = (some error, after) := by
  simp only [replay_append, passed, replay, failed]

end LeafHooks

/-! ### The traversal runs the loop -/

namespace TransformM

variable {σ α β : Type}

/-- An operation has the errors of a loop and leaves behind what the loop leaves behind. -/
def Replays (hooks : LeafHooks σ) (op : TransformM σ α) (visits : List Visit) : Prop :=
  ∀ state, (errorOf (op.exec state).1, (op.exec state).2.memory) =
    hooks.replay visits state.memory

variable {hooks : LeafHooks σ}

theorem replays_pure (a : α) : Replays hooks (pure a) [] := by
  intro state
  rfl

theorem replays_fresh : Replays hooks fresh [] := by
  intro state
  rfl

/-- A refused node ends the loop as a failure does. -/
theorem replays_unsupported (kind : String) :
    Replays hooks (throw (.unsupportedNode kind) : TransformM σ α) [.unsupported kind] := by
  intro state
  rfl

/-- The loops of two operations follow one another, with what is remembered between them. -/
theorem Replays.bind {op : TransformM σ α} {rest : α → TransformM σ β} {front back : List Visit}
    (first : Replays hooks op front) (second : ∀ a, Replays hooks (rest a) back) :
    Replays hooks (op >>= rest) (front ++ back) := by
  intro state
  have ran := first state
  rw [exec_bind, hooks.replay_append, ← ran]
  rcases op.exec state with ⟨error | a, middle⟩
  · rfl
  · exact second a middle

theorem Replays.map {op : TransformM σ α} {visits : List Visit} (ran : Replays hooks op visits)
    (f : α → β) : Replays hooks (f <$> op) visits := by
  rw [← bind_pure_comp, ← List.append_nil visits]
  exact ran.bind fun a => replays_pure (f a)

/-- Carrying out what a hook says calls no hook. -/
theorem replays_apply {node : Node α} (change : Change α) :
    Replays hooks (change.apply node) [] := by
  cases change with
  | keep => exact replays_pure node
  | renew content => exact replays_fresh.map (Node.mk · content)
  | replace other => exact replays_pure other

/-- A leaf is visited by a call of its hook. -/
theorem replays_ofLeaf (hook : Node α → HookM σ (Change α)) {node : Node α} {leaf : Leaf}
    (called : ∀ memory, hooks.call (.leaf leaf) memory = (hook node).outcome memory) :
    Replays hooks (ofLeaf hook node) [.leaf leaf] := by
  have hooked : Replays hooks (ofHook (hook node)) [.leaf leaf] := by
    intro state
    rw [exec_ofHook, hooks.replay_singleton, called]
    rfl
  exact hooked.bind replays_apply

/-- Keeping a node or building it anew calls no hook. -/
theorem replays_rebuild {c : Category} (unchanged : Bool) (node : Tree c)
    (build : NodeId → Tree c) :
    Replays hooks (Transformer.rebuild unchanged node build) [] := by
  cases unchanged with
  | true => exact replays_pure node
  | false => exact replays_fresh.map build

end TransformM

open TransformM in
/-- The traversal of the parts of a node runs the loop over what it comes to in them. -/
theorem Slot.replays_transform {σ : Type} (hooks : LeafHooks σ) (flavor : Flavor) (s : Slot)
    (parts : s.Part) :
    Replays hooks (s.transform (hooks.transformer flavor) parts) (s.visits flavor parts) := by
  have column (node : Node Column) :
      Replays hooks (ofLeaf hooks.column node) [.leaf (.column node)] :=
    replays_ofLeaf hooks.column fun _ => rfl
  induction s, parts using Slot.induction with
  | unit => exact replays_pure ()
  | table node =>
    rw [visits_table]
    exact replays_ofLeaf hooks.table fun _ => rfl
  | column node =>
    rw [visits_column]
    exact column node
  | argument node =>
    rw [visits_argument]
    exact replays_ofLeaf hooks.argument fun _ => rfl
  | noColumns => exact replays_pure []
  | moreColumns node nodes ih =>
    rw [visits_moreColumns, transform, List.mapM_cons]
    exact (column node).bind fun node' => ih.map (node' :: ·)
  | pair a b first second ihFirst ihSecond =>
    rw [visits_pair, transform]
    exact ihFirst.bind fun first' => ihSecond.map (first', ·)
  | frame frame parts ih =>
    rw [visits_tree, frame.visits_build, transform, hooks.transformer_eq, transform_frame]
    exact ih.map frame.build
  | @node c s form id parts ih =>
    rw [visits_tree, form.visits_build, transform, hooks.transformer_eq, transform_form]
    by_cases entered : form.entered flavor = true
    · rw [if_pos entered, if_pos entered, ← List.append_nil (s.visits flavor parts)]
      exact ih.bind fun parts' => replays_rebuild _ _ _
    · rw [if_neg entered, if_neg entered]
      exact replays_unsupported _

/-- The traversal of a tree by hooks on leaves is a loop over what it comes to, from left to right:
it has the error of the loop, if any, and leaves behind what the loop leaves behind. So whatever
stands behind the first failure has no effect. -/
theorem transform_eq_replay {σ : Type} (hooks : LeafHooks σ) (flavor : Flavor) {c : Category}
    (tree : Tree c) (next : NodeId) (memory : σ) :
    let ran := (hooks.transformer flavor).run tree next memory
    (errorOf ran.1, ran.2.memory) = hooks.replay (tree.visits flavor) memory ∧
      ∀ (front rest : List Visit) (visit : Visit) (before after : σ) (error : Error),
        tree.visits flavor = front ++ visit :: rest →
        hooks.replay front memory = (none, before) →
        hooks.call visit before = (some error, after) →
        errorOf ran.1 = some error ∧ ran.2.memory = after := by
  intro ran
  have looped : (errorOf ran.1, ran.2.memory) = hooks.replay (tree.visits flavor) memory := by
    rw [← Slot.visits_tree]
    exact Slot.replays_transform hooks flavor (.tree c) tree ⟨next, memory⟩
  refine ⟨looped, ?_⟩
  intro front rest visit before after error divided passed failed
  rw [divided, hooks.replay_of_call_error passed failed, Prod.mk.injEq] at looped
  exact looped

end SqlTree
