import SqlTree.Proofs.Transform.Traversal
import SqlTree.Proofs.Tree.Position

/-!
# Revisions

What a successful transformation of leaves can do to a tree, said once: `Revised` relates a tree to
its revision and to the calls of leaf hooks that were made on the way, from left to right. A node
whose parts are still the same is kept; otherwise it is built anew, from the new parts, under an
identity that was not in use before. `recorded_transform` says that every successful run is of this
kind, and that recording the calls does not change what happens.
-/

namespace SqlTree

/-- One call of a hook on a leaf: what the hook was given, and what it returned. -/
inductive LeafCall where
  | table (given returned : Node Table)
  | column (given returned : Node Column)
  | argument (given returned : Node Argument)
  deriving DecidableEq, Repr

namespace LeafCall

def given : LeafCall → Leaf
  | table given _ => .table given
  | column given _ => .column given
  | argument given _ => .argument given

def returned : LeafCall → Leaf
  | table _ returned => .table returned
  | column _ returned => .column returned
  | argument _ returned => .argument returned

def kept (call : LeafCall) : Bool :=
  call.returned.id == call.given.id

end LeafCall

/-! ### Recording the calls -/

section Recording

variable {σ α β : Type}

/-- Performs an operation on a leaf, and writes the call down if it succeeds. -/
def TransformM.logged (call : Node α → Node α → LeafCall)
    (visit : Node α → TransformM σ (Node α)) (given : Node α) :
    TransformM (σ × List LeafCall) (Node α) := do
  let before ← get
  let (result, after) := (visit given).exec { next := before.next, memory := before.memory.1 }
  match result with
  | .ok returned =>
    set (TransformState.mk after.next (after.memory, before.memory.2 ++ [call given returned]))
    return returned
  | .error error =>
    set (TransformState.mk after.next (after.memory, before.memory.2))
    throw error

/-- The same operations on leaves, with a record of the calls behind what they remember. -/
def LeafVisitor.recording (visitor : LeafVisitor σ) : LeafVisitor (σ × List LeafCall) where
  table := .logged .table visitor.table
  column := .logged .column visitor.column
  argument := .logged .argument visitor.argument

/-- Whenever an operation succeeds, the recording one does the same and adds some calls to the
record. Identities are only ever taken from those not yet in use. -/
def Recorded (plain : TransformM σ α) (recording : TransformM (σ × List LeafCall) α)
    (post : NodeId → List LeafCall → α → Prop) : Prop :=
  ∀ (start final : TransformState σ) (log : List LeafCall) (a : α),
    plain.exec start = (.ok a, final) →
      start.next ≤ final.next ∧
        ∃ calls, recording.exec ⟨start.next, start.memory, log⟩ =
            (.ok a, ⟨final.next, final.memory, log ++ calls⟩) ∧
          post start.next calls a

namespace Recorded

theorem pure (a : α) :
    Recorded (pure a : TransformM σ α) (pure a) fun _ calls b => calls = [] ∧ b = a := by
  intro start final log b success
  rw [TransformM.exec_pure, Prod.mk.injEq, Except.ok.injEq] at success
  obtain ⟨rfl, rfl⟩ := success
  refine ⟨Nat.le_refl _, [], ?_, rfl, rfl⟩
  rw [List.append_nil]
  rfl

/-- An operation that fails has no record to compare with. -/
theorem throw (error : Error) (recording : TransformM (σ × List LeafCall) α)
    (post : NodeId → List LeafCall → α → Prop) :
    Recorded (throw error : TransformM σ α) recording post := by
  intro start final log a success
  cases congrArg Prod.fst success

theorem fresh :
    Recorded (TransformM.fresh : TransformM σ NodeId) TransformM.fresh
      fun next calls id => calls = [] ∧ next ≤ id := by
  intro start final log id success
  rw [TransformM.exec_fresh, Prod.mk.injEq, Except.ok.injEq] at success
  obtain ⟨rfl, rfl⟩ := success
  refine ⟨Nat.le_succ _, [], ?_, rfl, Nat.le_refl _⟩
  rw [List.append_nil]
  rfl

/-- The records of two operations follow one another, and the first identity not in use only grows.
-/
theorem bind {plain : TransformM σ α} {recording : TransformM (σ × List LeafCall) α}
    {rest : α → TransformM σ β} {recordingRest : α → TransformM (σ × List LeafCall) β}
    {post : NodeId → List LeafCall → α → Prop} {postRest : α → NodeId → List LeafCall → β → Prop}
    (first : Recorded plain recording post)
    (second : ∀ a, Recorded (rest a) (recordingRest a) (postRest a)) :
    Recorded (plain >>= rest) (recording >>= recordingRest) fun next calls b =>
      ∃ a middle front back, next ≤ middle ∧ calls = front ++ back ∧ post next front a ∧
        postRest a middle back b := by
  intro start final log b success
  obtain ⟨a, middle, plainFirst, plainSecond⟩ := TransformM.exec_bind_ok success
  obtain ⟨grown, front, recordedFirst, postFirst⟩ := first start middle log a plainFirst
  obtain ⟨grownMore, back, recordedSecond, postSecond⟩ :=
    second a middle final (log ++ front) b plainSecond
  refine ⟨Nat.le_trans grown grownMore, front ++ back, ?_, a, middle.next, front, back, grown, rfl,
    postFirst, postSecond⟩
  rw [TransformM.exec_bind, recordedFirst, ← List.append_assoc]
  exact recordedSecond

theorem imp {plain : TransformM σ α} {recording : TransformM (σ × List LeafCall) α}
    {post weaker : NodeId → List LeafCall → α → Prop} (recorded : Recorded plain recording post)
    (weaken : ∀ next calls a, post next calls a → weaker next calls a) :
    Recorded plain recording weaker := by
  intro start final log a success
  obtain ⟨grown, calls, recordedRun, holds⟩ := recorded start final log a success
  exact ⟨grown, calls, recordedRun, weaken _ _ _ holds⟩

end Recorded

end Recording

/-! ### Calls that hooks make -/

section Hooks

variable {σ α : Type}

/-- What a change makes of a leaf, when identities from `next` on are not in use. -/
def Change.Yields (next : NodeId) (given : Node α) : Change α → Node α → Prop
  | .keep, returned => returned = given
  | .renew content, returned => returned.value = content ∧ next ≤ returned.id
  | .replace other, returned => returned = other

/-- Given a leaf, a hook may say something that yields the returned leaf. -/
def HookYields (hook : Node α → HookM σ (Change α)) (next : NodeId) (given returned : Node α) :
    Prop :=
  ∃ memory memory' change,
    (hook given).run.run memory = (.ok change, memory') ∧ change.Yields next given returned

/-- A call that the hooks may make while identities from `next` on are not in use. -/
def LeafHooks.Made (hooks : LeafHooks σ) (next : NodeId) : LeafCall → Prop
  | .table given returned => HookYields hooks.table next given returned
  | .column given returned => HookYields hooks.column next given returned
  | .argument given returned => HookYields hooks.argument next given returned

/-- Identities that are not in use later were not in use earlier. -/
theorem HookYields.mono {hook : Node α → HookM σ (Change α)} {next later : NodeId}
    {given returned : Node α} (yields : HookYields hook later given returned)
    (grown : next ≤ later) : HookYields hook next given returned := by
  obtain ⟨memory, memory', change, ran, yielded⟩ := yields
  refine ⟨memory, memory', change, ran, ?_⟩
  cases change with
  | keep => exact yielded
  | renew content => exact ⟨yielded.1, Nat.le_trans grown yielded.2⟩
  | replace other => exact yielded

theorem LeafHooks.Made.mono {hooks : LeafHooks σ} {next later : NodeId} {call : LeafCall}
    (made : hooks.Made later call) (grown : next ≤ later) : hooks.Made next call := by
  cases call <;> exact HookYields.mono made grown

/-- What a hook's operation on a leaf returns is what the hook says about it. -/
theorem TransformM.exec_ofLeaf_ok {hook : Node α → HookM σ (Change α)} {given returned : Node α}
    {start final : TransformState σ}
    (success : (TransformM.ofLeaf hook given).exec start = (.ok returned, final)) :
    start.next ≤ final.next ∧ HookYields hook start.next given returned := by
  obtain ⟨change, middle, hooked, applied⟩ := exec_bind_ok success
  rw [exec_ofHook, Prod.mk.injEq] at hooked
  obtain ⟨said, rfl⟩ := hooked
  have ran : (hook given).run.run start.memory =
      (.ok change, ((hook given).run.run start.memory).2) := Prod.ext said rfl
  cases change with
  | keep =>
    rw [Change.apply, exec_pure, Prod.mk.injEq, Except.ok.injEq] at applied
    obtain ⟨rfl, rfl⟩ := applied
    exact ⟨Nat.le_refl _, _, _, _, ran, rfl⟩
  | renew content =>
    rw [Change.apply, exec_bind, exec_fresh] at applied
    simp only [exec_pure, Prod.mk.injEq, Except.ok.injEq] at applied
    obtain ⟨rfl, rfl⟩ := applied
    exact ⟨Nat.le_succ _, _, _, _, ran, rfl, Nat.le_refl _⟩
  | replace other =>
    rw [Change.apply, exec_pure, Prod.mk.injEq, Except.ok.injEq] at applied
    obtain ⟨rfl, rfl⟩ := applied
    exact ⟨Nat.le_refl _, _, _, _, ran, rfl⟩

/-- Writing a call down does not disturb what the hooks remember. -/
theorem TransformM.exec_logged (call : Node α → Node α → LeafCall)
    (visit : Node α → TransformM σ (Node α)) {given returned : Node α}
    {start final : TransformState σ} (log : List LeafCall)
    (success : (visit given).exec start = (.ok returned, final)) :
    (TransformM.logged call visit given).exec ⟨start.next, start.memory, log⟩ =
      (.ok returned, ⟨final.next, final.memory, log ++ [call given returned]⟩) := by
  rw [logged, exec_bind, exec_get]
  simp only [success, exec_bind, exec_set]
  rfl

/-- A hook's operation on a leaf is recorded as one call that the hook makes. -/
theorem recorded_ofLeaf (hook : Node α → HookM σ (Change α)) (call : Node α → Node α → LeafCall)
    (given : Node α) :
    Recorded (TransformM.ofLeaf hook given) (TransformM.logged call (.ofLeaf hook) given)
      fun next calls returned =>
        calls = [call given returned] ∧ HookYields hook next given returned := by
  intro start final log returned success
  obtain ⟨grown, yields⟩ := TransformM.exec_ofLeaf_ok success
  exact ⟨grown, [call given returned], TransformM.exec_logged call _ log success, rfl, yields⟩

end Hooks

/-! ### Revisions -/

/-- The revision of the parts of a node, with the calls that were made on the way. New nodes have
identities from `next` on. -/
inductive Revised (made : LeafCall → Prop) (next : NodeId) :
    (s : Slot) → List LeafCall → s.Part → s.Part → Prop where
  | unit : Revised made next .unit [] () ()
  | table {given returned : Node Table} (call : made (.table given returned)) :
      Revised made next .table [.table given returned] given returned
  | column {given returned : Node Column} (call : made (.column given returned)) :
      Revised made next .column [.column given returned] given returned
  | argument {given returned : Node Argument} (call : made (.argument given returned)) :
      Revised made next .argument [.argument given returned] given returned
  | noColumns : Revised made next .columns [] [] []
  | moreColumns {given returned : Node Column} {calls : List LeafCall}
      {nodes nodes' : List (Node Column)} (call : made (.column given returned))
      (rest : Revised made next .columns calls nodes nodes') :
      Revised made next .columns (.column given returned :: calls) (given :: nodes)
        (returned :: nodes')
  | pair {a b : Slot} {calls more : List LeafCall} {first first' : a.Part} {second second' : b.Part}
      (revisedFirst : Revised made next a calls first first')
      (revisedSecond : Revised made next b more second second') :
      Revised made next (.pair a b) (calls ++ more) (first, second) (first', second')
  | frame {c : Category} {s : Slot} {calls : List LeafCall} {parts parts' : s.Part}
      (frame : Frame c s) (inside : Revised made next s calls parts parts') :
      Revised made next (.tree c) calls (frame.build parts) (frame.build parts')
  | kept {c : Category} {s : Slot} {calls : List LeafCall} {parts parts' : s.Part}
      (form : Form c s) (id : NodeId) (inside : Revised made next s calls parts parts')
      (same : s.same parts' parts = true) :
      Revised made next (.tree c) calls (form.build id parts) (form.build id parts)
  | rebuilt {c : Category} {s : Slot} {calls : List LeafCall} {parts parts' : s.Part}
      (form : Form c s) (id id' : NodeId) (inside : Revised made next s calls parts parts')
      (changed : s.same parts' parts = false) (fresh : next ≤ id') :
      Revised made next (.tree c) calls (form.build id parts) (form.build id' parts')

/-- What is not in use later was not in use before. -/
theorem Revised.mono {σ : Type} {hooks : LeafHooks σ} {next later : NodeId} {s : Slot}
    {calls : List LeafCall} {parts parts' : s.Part}
    (revised : Revised (hooks.Made later) later s calls parts parts') (grown : next ≤ later) :
    Revised (hooks.Made next) next s calls parts parts' := by
  induction revised with
  | unit => exact .unit
  | table call => exact .table (call.mono grown)
  | column call => exact .column (call.mono grown)
  | argument call => exact .argument (call.mono grown)
  | noColumns => exact .noColumns
  | moreColumns call _ ih => exact .moreColumns (call.mono grown) ih
  | pair _ _ ihFirst ihSecond => exact .pair ihFirst ihSecond
  | frame frame _ ih => exact .frame frame ih
  | kept form id _ same ih => exact .kept form id ih same
  | rebuilt form id id' _ changed fresh ih =>
    exact .rebuilt form id id' ih changed (Nat.le_trans grown fresh)

/-- A node is kept, or built anew under an identity that was not in use. -/
theorem recorded_rebuild {σ : Type} {c : Category} (unchanged : Bool) (node : Tree c)
    (build : NodeId → Tree c) :
    Recorded (Transformer.rebuild unchanged node build : TransformM σ (Tree c))
      (Transformer.rebuild unchanged node build) fun next calls node' =>
        calls = [] ∧ (unchanged = true ∧ node' = node ∨
          unchanged = false ∧ ∃ id, next ≤ id ∧ node' = build id) := by
  cases unchanged with
  | true =>
    refine (Recorded.pure node).imp ?_
    rintro next calls node' ⟨rfl, rfl⟩
    exact ⟨rfl, .inl ⟨rfl, rfl⟩⟩
  | false =>
    refine (Recorded.fresh.bind fun id => Recorded.pure (build id)).imp ?_
    rintro next calls node' ⟨id, _, _, _, _, rfl, ⟨rfl, unused⟩, rfl, rfl⟩
    exact ⟨rfl, .inr ⟨rfl, id, unused, rfl⟩⟩

/-- A successful transformation of leaves revises the parts of a node, and recording its calls
changes nothing else. -/
theorem recorded_transform {σ : Type} (hooks : LeafHooks σ) (flavor : Flavor) (s : Slot)
    (parts : s.Part) :
    Recorded (s.transform (hooks.visitor.transformer flavor) parts)
      (s.transform (hooks.visitor.recording.transformer flavor) parts)
      fun next calls parts' => Revised (hooks.Made next) next s calls parts parts' := by
  induction s, parts using Slot.induction with
  | unit =>
    refine (Recorded.pure ()).imp ?_
    rintro next calls _ ⟨rfl, rfl⟩
    exact .unit
  | table given =>
    refine (recorded_ofLeaf hooks.table .table given).imp ?_
    rintro next calls returned ⟨rfl, yields⟩
    exact .table yields
  | column given =>
    refine (recorded_ofLeaf hooks.column .column given).imp ?_
    rintro next calls returned ⟨rfl, yields⟩
    exact .column yields
  | argument given =>
    refine (recorded_ofLeaf hooks.argument .argument given).imp ?_
    rintro next calls returned ⟨rfl, yields⟩
    exact .argument yields
  | noColumns =>
    refine (Recorded.pure []).imp ?_
    rintro next calls _ ⟨rfl, rfl⟩
    exact .noColumns
  | moreColumns given nodes ih =>
    simp only [Slot.transform, List.mapM_cons]
    refine ((recorded_ofLeaf hooks.column .column given).bind fun returned =>
      ih.bind fun nodes' => Recorded.pure (returned :: nodes')).imp ?_
    rintro next calls _ ⟨returned, middle, _, _, grown, rfl, ⟨rfl, yields⟩, nodes', _, back, _, _,
      rfl, rest, rfl, rfl⟩
    rw [List.append_nil]
    exact .moreColumns yields (rest.mono grown)
  | pair a b first second ihFirst ihSecond =>
    refine (ihFirst.bind fun first' => ihSecond.bind fun second' =>
      Recorded.pure (first', second')).imp ?_
    rintro next calls _ ⟨first', middle, front, _, grown, rfl, revisedFirst, second', _, back, _, _,
      rfl, revisedSecond, rfl, rfl⟩
    rw [List.append_nil]
    exact .pair revisedFirst (revisedSecond.mono grown)
  | frame frame parts ih =>
    simp only [Slot.transform, transform_frame]
    refine (ih.bind fun parts' => Recorded.pure (frame.build parts')).imp ?_
    rintro next calls _ ⟨parts', _, front, _, _, rfl, inside, rfl, rfl⟩
    rw [List.append_nil]
    exact .frame frame inside
  | node form id parts ih =>
    simp only [Slot.transform, transform_form]
    by_cases entered : form.entered flavor = true
    · rw [if_pos entered, if_pos entered]
      refine (ih.bind fun parts' => recorded_rebuild _ _ _).imp ?_
      rintro next calls _ ⟨parts', _, front, _, grown, rfl, inside, rfl, kept | rebuilt⟩
      · obtain ⟨same, rfl⟩ := kept
        rw [List.append_nil]
        exact .kept form id inside same
      · obtain ⟨changed, id', unused, rfl⟩ := rebuilt
        rw [List.append_nil]
        exact .rebuilt form id id' inside changed (Nat.le_trans grown unused)
    · rw [if_neg entered, if_neg entered]
      exact .throw _ _ _

/-! ### What a revision keeps -/

namespace Revised

variable {made : LeafCall → Prop} {next : NodeId} {s : Slot} {calls : List LeafCall}
  {parts parts' : s.Part}

/-- The hooks are called for every leaf once, from left to right. -/
theorem given_eq (revised : Revised made next s calls parts parts') :
    calls.map LeafCall.given = s.leaves parts := by
  induction revised with
  | unit | noColumns | table | column | argument => rfl
  | moreColumns call rest ih => exact congrArg _ ih
  | pair _ _ ihFirst ihSecond =>
    rw [List.map_append, ihFirst, ihSecond]
    rfl
  | frame frame _ ih => exact ih.trans (frame.leaves_build _).symm
  | kept form id _ _ ih => exact ih.trans (form.leaves_build id _).symm
  | rebuilt form id _ _ _ _ ih => exact ih.trans (form.leaves_build id _).symm

/-- The revision has as many leaves. -/
theorem length_eq (revised : Revised made next s calls parts parts') :
    calls.length = (s.leaves parts').length := by
  induction revised with
  | unit | noColumns | table | column | argument => rfl
  | moreColumns call rest ih => exact congrArg Nat.succ ih
  | pair _ _ ihFirst ihSecond =>
    rw [List.length_append, ihFirst, ihSecond]
    exact (List.length_append ..).symm
  | frame frame _ ih => exact ih.trans (congrArg _ (frame.leaves_build _).symm)
  | kept form id inside _ _ =>
    have leaves := congrArg List.length (inside.given_eq.trans (form.leaves_build id _).symm)
    rw [List.length_map] at leaves
    exact leaves
  | rebuilt form _ id' _ _ _ ih => exact ih.trans (congrArg _ (form.leaves_build id' _).symm)

/-- Parts are the same nodes after a revision exactly if every call inside kept its leaf. New nodes
are different from all nodes that were there. -/
theorem same_eq (revised : Revised made next s calls parts parts')
    (live : ∀ id ∈ s.ids parts, id < next) : s.same parts' parts = calls.all LeafCall.kept := by
  induction revised with
  | unit | noColumns => rfl
  | table | column | argument => exact (Bool.and_true _).symm
  | moreColumns call rest ih =>
    have restLive := fun id member => live id (List.mem_cons_of_mem _ member)
    exact congrArg _ (ih restLive)
  | pair _ _ ihFirst ihSecond =>
    have first := ihFirst fun id member => live id (List.mem_append_left _ member)
    have second := ihSecond fun id member => live id (List.mem_append_right _ member)
    rw [List.all_append, ← first, ← second]
    rfl
  | frame frame _ ih =>
    exact (frame.same_build _ _).trans (ih (frame.ids_build_lt live))
  | kept form id _ same ih =>
    obtain ⟨_, inside⟩ := form.ids_build_lt live
    rw [← ih inside, same]
    exact Tree.same_self _
  | rebuilt form id id' _ changed fresh ih =>
    obtain ⟨old, inside⟩ := form.ids_build_lt live
    have newer : id < id' := Nat.lt_of_lt_of_le old fresh
    have different : (id' == id) = false := beq_eq_false_iff_ne.mpr (Nat.ne_of_gt newer)
    rw [← ih inside, changed]
    exact (form.same_build _ _ _ _).trans different

/-- If every call returned the leaf it was given, nothing has changed at all. -/
theorem eq_of_returned (revised : Revised made next s calls parts parts')
    (live : ∀ id ∈ s.ids parts, id < next)
    (returned : ∀ call ∈ calls, call.returned = call.given) : parts' = parts := by
  induction revised with
  | unit | noColumns => rfl
  | table call => exact Leaf.table.inj (returned _ List.mem_cons_self)
  | column call => exact Leaf.column.inj (returned _ List.mem_cons_self)
  | argument call => exact Leaf.argument.inj (returned _ List.mem_cons_self)
  | moreColumns call rest ih =>
    have first := Leaf.column.inj (returned _ List.mem_cons_self)
    have others := ih (fun id member => live id (List.mem_cons_of_mem _ member))
      (fun call member => returned call (List.mem_cons_of_mem _ member))
    rw [first, others]
  | pair _ _ ihFirst ihSecond =>
    have first := ihFirst (fun id member => live id (List.mem_append_left _ member))
      (fun call member => returned call (List.mem_append_left _ member))
    have second := ihSecond (fun id member => live id (List.mem_append_right _ member))
      (fun call member => returned call (List.mem_append_right _ member))
    rw [first, second]
  | frame frame _ ih =>
    rw [ih (frame.ids_build_lt live) returned]
  | kept => rfl
  | @rebuilt c s calls parts parts' form id id' inside changed fresh ih =>
    -- The node would not have been rebuilt: each leaf below it is the one that was given.
    have keptAll : calls.all LeafCall.kept = true := List.all_eq_true.mpr fun call member =>
      beq_iff_eq.mpr (congrArg Leaf.id (returned call member))
    have same := inside.same_eq (form.ids_build_lt live).2
    rw [changed, keptAll] at same
    cases same

/-- Every call was made by the hooks, on a leaf that was there before. -/
theorem made_of_mem (revised : Revised made next s calls parts parts')
    (live : ∀ id ∈ s.ids parts, id < next) :
    ∀ call ∈ calls, made call ∧ call.given.id < next := by
  induction revised with
  | unit | noColumns => exact fun call member => absurd member List.not_mem_nil
  | table call | column call | argument call =>
    exact List.forall_mem_singleton.mpr ⟨call, live _ List.mem_cons_self⟩
  | moreColumns call rest ih =>
    exact List.forall_mem_cons.mpr ⟨⟨call, live _ List.mem_cons_self⟩,
      ih fun id member => live id (List.mem_cons_of_mem _ member)⟩
  | pair _ _ ihFirst ihSecond =>
    have first := ihFirst fun id member => live id (List.mem_append_left _ member)
    have second := ihSecond fun id member => live id (List.mem_append_right _ member)
    exact fun call member => (List.mem_append.mp member).elim (first call) (second call)
  | frame frame _ ih => exact ih (frame.ids_build_lt live)
  | kept form _ _ _ ih => exact ih (form.ids_build_lt live).2
  | rebuilt form _ _ _ _ _ ih => exact ih (form.ids_build_lt live).2

/-- If one node has one content, parts that are the same nodes are equal. -/
theorem eq_of_same (revised : Revised made next s calls parts parts')
    (live : ∀ id ∈ s.ids parts, id < next)
    (content : ∀ call ∈ calls, call.returned.id = call.given.id → call.returned = call.given)
    (same : s.same parts' parts = true) : parts' = parts := by
  refine revised.eq_of_returned live fun call member => content call member ?_
  rw [revised.same_eq live, List.all_eq_true] at same
  exact beq_iff_eq.mp (same call member)

end Revised

end SqlTree
