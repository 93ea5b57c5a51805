import SqlTree.Proofs.Transform.Revision

/-!
# Settled rewrites

Hooks that leave alone what they have returned reach their aim in one pass: a second pass over the
result succeeds, returns the very same root and builds nothing. The leaves of a result are not all
returned by hooks. A node whose parts came back as the same nodes is kept with the parts it had, so
what is said of a pass is said of what it returned and of what it was given, as far as that is the
same.
-/

namespace SqlTree

/-! ## Hooks -/

section Hooks

variable {α : Type}

def Change.Holds (node : Node α) : Change α → Prop
  | .keep => True
  | .renew _ => False
  | .replace other => other.id = node.id

def HookHolds (hook : Node α → HookM Unit (Change α)) (node : Node α) : Prop :=
  ∃ change, (hook node).run.run () = (.ok change, ()) ∧ change.Holds node

/-- A hook that leaves alone whatever it may return while identities from `next` on are not in
use. -/
def HookSettled (hook : Node α → HookM Unit (Change α)) (next : NodeId) : Prop :=
  ∀ given returned, HookYields hook next given returned → HookHolds hook returned

structure LeafHooks.Settled (hooks : LeafHooks Unit) (next : NodeId) : Prop where
  table : HookSettled hooks.table next
  column : HookSettled hooks.column next
  argument : HookSettled hooks.argument next

variable {hook : Node α → HookM Unit (Change α)} {next : NodeId} {given returned : Node α}

/-- A hook that holds a leaf returns it, and builds nothing. -/
theorem HookHolds.exec (holds : HookHolds hook given) (state : TransformState Unit) :
    ∃ node, (TransformM.ofLeaf hook given).exec state = (.ok node, state) ∧
      node.same given = true := by
  obtain ⟨change, ran, held⟩ := holds
  have hooked : (TransformM.ofHook (hook given)).exec state = (.ok change, state) := by
    rw [TransformM.exec_ofHook, ran]
  cases change with
  | keep => exact ⟨given, TransformM.exec_bind_of_ok hooked, beq_self_eq_true _⟩
  | renew content => cases held
  | replace other => exact ⟨other, TransformM.exec_bind_of_ok hooked, beq_iff_eq.mpr held⟩

/-- A hook that has returned the leaf it was given holds that leaf: a new one would have an identity
that was not in use. -/
theorem HookYields.holds_of_same (yields : HookYields hook next given returned)
    (live : given.id < next) (same : returned.same given = true) : HookHolds hook given := by
  obtain ⟨_, _, change, ran, yielded⟩ := yields
  refine ⟨change, ran, ?_⟩
  have sameId : returned.id = given.id := beq_iff_eq.mp same
  cases change with
  | keep => trivial
  | renew content =>
    have fresh : next ≤ returned.id := yielded.2
    rw [sameId] at fresh
    exact absurd live (Nat.not_lt.mpr fresh)
  | replace other =>
    cases yielded
    exact sameId

end Hooks

/-! ## Passes -/

/-- A pass over some parts succeeds, returns the same nodes and builds nothing. -/
def Slot.Settled (r : Transformer Unit) (s : Slot) (parts : s.Part) : Prop :=
  ∀ state, ∃ parts', (s.transform r parts).exec state = (.ok parts', state) ∧
    s.same parts' parts = true

section Passes

variable {visitor : LeafVisitor Unit} {flavor : Flavor}

theorem Slot.settled_pair {a b : Slot} {first : a.Part} {second : b.Part}
    {r : Transformer Unit} (settledFirst : a.Settled r first) (settledSecond : b.Settled r second) :
    (Slot.pair a b).Settled r (first, second) := by
  intro state
  obtain ⟨first', ranFirst, sameFirst⟩ := settledFirst state
  obtain ⟨second', ranSecond, sameSecond⟩ := settledSecond state
  refine ⟨(first', second'), ?_, ?_⟩
  · rw [transform, TransformM.exec_bind_of_ok ranFirst, TransformM.exec_bind_of_ok ranSecond]
    rfl
  · exact Bool.and_eq_true_iff.mpr ⟨sameFirst, sameSecond⟩

theorem Slot.settled_moreColumns {node : Node Column} {nodes : List (Node Column)}
    {r : Transformer Unit} (settledFirst : Slot.column.Settled r node)
    (settledRest : Slot.columns.Settled r nodes) : Slot.columns.Settled r (node :: nodes) := by
  intro state
  obtain ⟨node', ranFirst, sameFirst⟩ := settledFirst state
  obtain ⟨nodes', ranRest, sameRest⟩ := settledRest state
  have inOrder : Slot.columns.transform r (node :: nodes) = (do
      let first ← Slot.column.transform r node
      let rest ← Slot.columns.transform r nodes
      return first :: rest) := List.mapM_cons
  refine ⟨node' :: nodes', ?_, ?_⟩
  · rw [inOrder, TransformM.exec_bind_of_ok ranFirst, TransformM.exec_bind_of_ok ranRest]
    rfl
  · exact Bool.and_eq_true_iff.mpr ⟨sameFirst, sameRest⟩

/-- Lists and wrappers are settled if their parts are. -/
theorem Frame.settled_build {c : Category} {s : Slot} (frame : Frame c s) {parts : s.Part}
    (settled : s.Settled (visitor.transformer flavor) parts) :
    (Slot.tree c).Settled (visitor.transformer flavor) (frame.build parts) := by
  intro state
  obtain ⟨parts', ran, sameParts⟩ := settled state
  refine ⟨frame.build parts', ?_, (frame.same_build parts' parts).trans sameParts⟩
  rw [Slot.transform, transform_frame, TransformM.exec_bind_of_ok ran]
  rfl

/-- A node that is entered is kept if nothing changes in its parts. -/
theorem Form.settled_build {c : Category} {s : Slot} (form : Form c s) (id : NodeId)
    {parts : s.Part} (entered : form.entered flavor = true)
    (settled : s.Settled (visitor.transformer flavor) parts) :
    (Slot.tree c).Settled (visitor.transformer flavor) (form.build id parts) := by
  intro state
  obtain ⟨parts', ran, sameParts⟩ := settled state
  refine ⟨form.build id parts, ?_, Tree.same_self _⟩
  rw [Slot.transform, transform_form, if_pos entered, TransformM.exec_bind_of_ok ran, sameParts]
  rfl

end Passes

/-- A second pass changes nothing in what the first one has returned, and nothing in what it was
given if that is the same. -/
def Slot.Settles (r : Transformer Unit) (next : NodeId) (s : Slot) (parts : s.Part) : Prop :=
  ∀ (start final : TransformState Unit) (parts' : s.Part), next ≤ start.next →
    (s.transform r parts).exec start = (.ok parts', final) →
      s.Settled r parts' ∧ (s.same parts' parts = true → s.Settled r parts)

section Settling

variable {hooks : LeafHooks Unit} {next : NodeId} (flavor : Flavor)

/-- One hook that is settled settles its leaves. -/
theorem HookSettled.leaf {α : Type} {hook : Node α → HookM Unit (Change α)}
    (settled : HookSettled hook next) {given returned : Node α} {start final : TransformState Unit}
    (live : given.id < next) (later : next ≤ start.next)
    (success : (TransformM.ofLeaf hook given).exec start = (.ok returned, final)) :
    HookHolds hook returned ∧ (returned.same given = true → HookHolds hook given) := by
  have yields := (TransformM.exec_ofLeaf_ok success).2.mono later
  exact ⟨settled given returned yields, yields.holds_of_same live⟩

/-- Settled hooks settle all parts of a node. -/
theorem LeafHooks.Settled.slot (settled : hooks.Settled next) (s : Slot) (parts : s.Part)
    (live : ∀ id ∈ s.ids parts, id < next) :
    s.Settles (hooks.visitor.transformer flavor) next parts := by
  induction s, parts using Slot.induction with
  | unit =>
    intro start final parts' later success
    have unchanged : Slot.unit.Settled (hooks.visitor.transformer flavor) () :=
      fun state => ⟨(), rfl, rfl⟩
    exact ⟨unchanged, fun _ => unchanged⟩
  | table given =>
    intro start final returned later success
    obtain ⟨after, before⟩ := settled.table.leaf (live _ List.mem_cons_self) later success
    exact ⟨after.exec, fun same => (before same).exec⟩
  | column given =>
    intro start final returned later success
    obtain ⟨after, before⟩ := settled.column.leaf (live _ List.mem_cons_self) later success
    exact ⟨after.exec, fun same => (before same).exec⟩
  | argument given =>
    intro start final returned later success
    obtain ⟨after, before⟩ := settled.argument.leaf (live _ List.mem_cons_self) later success
    exact ⟨after.exec, fun same => (before same).exec⟩
  | noColumns =>
    intro start final parts' later success
    cases success
    have unchanged : Slot.columns.Settled (hooks.visitor.transformer flavor) [] :=
      fun state => ⟨[], rfl, rfl⟩
    exact ⟨unchanged, fun _ => unchanged⟩
  | moreColumns given nodes ih =>
    intro start final parts' later success
    rw [Slot.transform, List.mapM_cons] at success
    obtain ⟨returned, middle, ranFirst, rest⟩ := TransformM.exec_bind_ok success
    obtain ⟨nodes', last, ranRest, ended⟩ := TransformM.exec_bind_ok rest
    cases ended
    have grown := (TransformM.exec_ofLeaf_ok ranFirst).1
    obtain ⟨after, before⟩ := settled.column.leaf (live _ List.mem_cons_self) later ranFirst
    obtain ⟨afterRest, beforeRest⟩ := ih (fun id member => live id (List.mem_cons_of_mem _ member))
      middle final nodes' (Nat.le_trans later grown) ranRest
    refine ⟨Slot.settled_moreColumns after.exec afterRest, fun same => ?_⟩
    obtain ⟨sameFirst, sameRest⟩ := Bool.and_eq_true_iff.mp same
    exact Slot.settled_moreColumns (before sameFirst).exec (beforeRest sameRest)
  | pair a b first second ihFirst ihSecond =>
    intro start final parts' later success
    obtain ⟨first', middle, ranFirst, rest⟩ := TransformM.exec_bind_ok success
    obtain ⟨second', last, ranSecond, ended⟩ := TransformM.exec_bind_ok rest
    cases ended
    have grown := (recorded_transform hooks flavor a first start middle [] first' ranFirst).1
    obtain ⟨afterFirst, beforeFirst⟩ :=
      ihFirst (fun id member => live id (List.mem_append_left _ member)) start middle first' later
        ranFirst
    obtain ⟨afterSecond, beforeSecond⟩ :=
      ihSecond (fun id member => live id (List.mem_append_right _ member)) middle final second'
        (Nat.le_trans later grown) ranSecond
    refine ⟨Slot.settled_pair afterFirst afterSecond, fun same => ?_⟩
    obtain ⟨sameFirst, sameSecond⟩ := Bool.and_eq_true_iff.mp same
    exact Slot.settled_pair (beforeFirst sameFirst) (beforeSecond sameSecond)
  | frame frame parts ih =>
    intro start final tree' later success
    rw [Slot.transform, transform_frame] at success
    obtain ⟨parts', middle, ran, ended⟩ := TransformM.exec_bind_ok success
    cases ended
    obtain ⟨after, before⟩ := ih (frame.ids_build_lt live) start final parts' later ran
    refine ⟨frame.settled_build after, fun same => frame.settled_build (before ?_)⟩
    exact (frame.same_build parts' parts).symm.trans same
  | @node c s form id parts ih =>
    intro start final tree' later success
    rw [Slot.transform, transform_form] at success
    by_cases entered : form.entered flavor = true
    · rw [if_pos entered] at success
      obtain ⟨parts', middle, ran, ended⟩ := TransformM.exec_bind_ok success
      obtain ⟨old, inside⟩ := form.ids_build_lt live
      obtain ⟨after, before⟩ := ih inside start middle parts' later ran
      cases same : s.same parts' parts with
      | true =>
        rw [same] at ended
        cases ended
        have kept := form.settled_build id entered (before same)
        exact ⟨kept, fun _ => kept⟩
      | false =>
        rw [same] at ended
        cases ended
        refine ⟨form.settled_build middle.next entered after, fun sameNode => ?_⟩
        -- The node that was built is not the one that was given.
        have grown := (recorded_transform hooks flavor s parts start middle [] parts' ran).1
        have reused : middle.next = id :=
          beq_iff_eq.mp ((form.same_build middle.next id parts' parts).symm.trans sameNode)
        rw [reused] at grown
        exact absurd old (Nat.not_lt.mpr (Nat.le_trans later grown))
    · rw [if_neg entered] at success
      cases congrArg Prod.fst success

end Settling

/-- **Settled rewrites are fixpoints.** Take hooks on leaves that remember nothing and that, given a
leaf which they have returned themselves, return that very leaf. If they transform a tree whose
identities are all taken before `next`, then a second pass over the result succeeds, whatever nodes
have been built in between: it returns the root of that result, and builds no node. -/
theorem transform_settles (hooks : LeafHooks Unit) (flavor : Flavor) {c : Category}
    (tree tree' : Tree c) (next : NodeId) (final : TransformState Unit)
    (live : ∀ id ∈ tree.ids, id < next) (settled : hooks.Settled next)
    (success : (hooks.transformer flavor).run tree next () = (.ok tree', final))
    (next' : NodeId) :
    ∃ tree'' : Tree c, (hooks.transformer flavor).run tree' next' () = (.ok tree'', ⟨next', ()⟩) ∧
      tree''.same tree' = true := by
  have settles := settled.slot flavor (.tree c) tree live ⟨next, ()⟩ final tree' (Nat.le_refl _)
    success
  exact settles.1 ⟨next', ()⟩

/-- Qualifies every unqualified column, and has one node stand for the table everywhere. -/
def qualifyBooks : LeafHooks Unit where
  table _ := pure (.replace ⟨0, { name := "books" }⟩)
  column node := pure
    (if node.value.table.isSome then .keep else .renew { node.value with table := some "books" })

/-- Once a column is qualified it is kept, and the table is replaced by itself. -/
theorem qualifyBooks_settled (next : NodeId) : qualifyBooks.Settled next where
  table := by
    rintro given returned ⟨_, _, change, ran, yielded⟩
    cases ran
    cases yielded
    exact ⟨_, rfl, rfl⟩
  column := by
    rintro given returned ⟨_, _, change, ran, yielded⟩
    have qualified : returned.value.table.isSome = true := by
      cases ran
      by_cases already : given.value.table.isSome = true
      · rw [if_pos already] at yielded
        rw [yielded, already]
      · rw [if_neg already] at yielded
        rw [yielded.1]
        rfl
    refine ⟨.keep, ?_, trivial⟩
    exact congrArg (fun change => ((.ok change, ()) : Except Error (Change Column) × Unit))
      (if_pos qualified)
  argument _ _ _ := ⟨.keep, rfl, trivial⟩

def bookUpsert (id : NodeId) (into : Node Table) (entry : NodeId) (target conflict : Node Column) :
    Statement :=
  let number : Scalar := .argument ⟨1, { value := .text "0262", type := .text }⟩
  let known : Node Column := ⟨2, { table := some "books", name := "number", type := .text }⟩
  .extensionStatement (.conflictUpsert id into (.cons (.assign entry target number) .nil) [conflict]
    (.cons (.assign 3 known (.column known)) .nil))

/-- The first pass qualifies a target and a conflict column, and keeps the update behind them; the
second pass keeps all. -/
theorem transform_settles_bookUpsert :
    let number : Column := { name := "number", type := .text }
    let qualified : Column := { number with table := some "books" }
    let before := bookUpsert 4 ⟨5, { name := "book" }⟩ 6 ⟨7, number⟩ ⟨7, number⟩
    let after := bookUpsert 11 ⟨0, { name := "books" }⟩ 9 ⟨8, qualified⟩ ⟨10, qualified⟩
    (∀ id ∈ before.ids, id < 8) ∧
      (qualifyBooks.transformer .postgresql).run before 8 () = (.ok after, ⟨12, ()⟩) ∧
      ∃ again : Statement,
        (qualifyBooks.transformer .postgresql).run after 12 () = (.ok again, ⟨12, ()⟩) ∧
          again.same after = true := by
  intro number qualified before after
  have live : ∀ id ∈ before.ids, id < 8 := by decide
  have success : (qualifyBooks.transformer .postgresql).run before 8 () =
      (.ok after, ⟨12, ()⟩) := rfl
  exact ⟨live, success, transform_settles qualifyBooks .postgresql before after 8 ⟨12, ()⟩ live
    (qualifyBooks_settled 8) success 12⟩

end SqlTree
