import SqlTree.Proofs.Transform.Revision
import SqlTree.Proofs.Tree.Map

/-!
# A transformation of leaves is a map

Hooks that put mapped content in the place of every leaf, whether in new nodes, in nodes that were
already there or, where the content does not change, in the node itself, make the transformation as
a whole agree with the plain structural map: sharing what has not changed is invisible in the
content of the result.
-/

namespace SqlTree

variable {σ α : Type}

/-- A change that puts mapped content in the place of a leaf. The leaf itself may stay only if the
map leaves its content alone. -/
def Change.Realizes (f : α → α) (node : Node α) : Change α → Prop
  | .keep => f node.value = node.value
  | .renew content => content = f node.value
  | .replace other => other.value = f node.value ∧ (other.id = node.id → f node.value = node.value)

/-- A hook that puts mapped content in the place of every leaf, whatever it remembers. -/
def HookRealizes (f : α → α) (hook : Node α → HookM σ (Change α)) : Prop :=
  ∀ node memory change memory',
    (hook node).run.run memory = (.ok change, memory') → change.Realizes f node

structure LeafHooks.Realizes (hooks : LeafHooks σ) (f : LeafMap) : Prop where
  table : HookRealizes f.table hooks.table
  column : HookRealizes f.column hooks.column
  argument : HookRealizes f.argument hooks.argument

/-- A call whose result has the mapped content, and is the given leaf in full if it is the same
node. -/
def LeafMap.Realized (f : LeafMap) : LeafCall → Prop
  | .table given returned =>
    returned.value = f.table given.value ∧ (returned.id = given.id → returned = given)
  | .column given returned =>
    returned.value = f.column given.value ∧ (returned.id = given.id → returned = given)
  | .argument given returned =>
    returned.value = f.argument given.value ∧ (returned.id = given.id → returned = given)

theorem Node.ext_of_id {given returned : Node α} (id : returned.id = given.id)
    (value : returned.value = given.value) : returned = given := by
  obtain ⟨_, _⟩ := returned
  obtain rfl := id
  obtain rfl := value
  rfl

/-- A new node cannot be mistaken for the leaf it replaces, whose identity was in use. -/
theorem HookYields.realized {f : α → α} {hook : Node α → HookM σ (Change α)} {next : NodeId}
    {given returned : Node α} (yields : HookYields hook next given returned)
    (realizes : HookRealizes f hook) (live : given.id < next) :
    returned.value = f given.value ∧ (returned.id = given.id → returned = given) := by
  obtain ⟨memory, memory', change, ran, yielded⟩ := yields
  have mapped := realizes given memory change memory' ran
  cases change with
  | keep =>
    obtain rfl : returned = given := yielded
    exact ⟨mapped.symm, fun _ => rfl⟩
  | renew content =>
    obtain ⟨value, fresh⟩ := yielded
    refine ⟨value.trans mapped, fun same => ?_⟩
    exact absurd (same ▸ fresh) (Nat.not_le_of_gt live)
  | replace other =>
    obtain rfl : returned = other := yielded
    obtain ⟨value, settled⟩ := mapped
    exact ⟨value, fun same => Node.ext_of_id same (value.trans (settled same))⟩

/-- Calls of hooks that realize a map have its results. -/
theorem LeafHooks.Realizes.realized {hooks : LeafHooks σ} {f : LeafMap}
    (realizes : hooks.Realizes f) {next : NodeId} {call : LeafCall} (made : hooks.Made next call)
    (live : call.given.id < next) : f.Realized call := by
  cases call with
  | table => exact HookYields.realized made realizes.table live
  | column => exact HookYields.realized made realizes.column live
  | argument => exact HookYields.realized made realizes.argument live

/-- A leaf that is kept is kept in full. -/
theorem LeafMap.Realized.eq_of_id {f : LeafMap} {call : LeafCall} (realized : f.Realized call)
    (same : call.returned.id = call.given.id) : call.returned = call.given := by
  cases call with
  | table => exact congrArg Leaf.table (realized.2 same)
  | column => exact congrArg Leaf.column (realized.2 same)
  | argument => exact congrArg Leaf.argument (realized.2 same)

/-- The content of a revision by calls that map their leaves is the mapped content. -/
theorem Revised.erase_eq {f : LeafMap} {made : LeafCall → Prop} {next : NodeId} {s : Slot}
    {calls : List LeafCall} {parts parts' : s.Part}
    (revised : Revised made next s calls parts parts') (live : ∀ id ∈ s.ids parts, id < next)
    (realized : ∀ call ∈ calls, f.Realized call) :
    s.map (fun _ => 0) {} parts' = s.map (fun _ => 0) f parts := by
  induction revised with
  | unit | noColumns => rfl
  | table | column | argument =>
    exact congrArg (Node.mk 0) (realized _ List.mem_cons_self).1
  | moreColumns _ _ ih =>
    obtain ⟨first, rest⟩ := List.forall_mem_cons.mp realized
    have others := ih (fun id member => live id (List.mem_cons_of_mem _ member)) rest
    exact List.cons_eq_cons.mpr ⟨congrArg (Node.mk 0) first.1, others⟩
  | pair _ _ ihFirst ihSecond =>
    obtain ⟨realizedFirst, realizedSecond⟩ := List.forall_mem_append.mp realized
    have first := ihFirst (fun id member => live id (List.mem_append_left _ member)) realizedFirst
    have second :=
      ihSecond (fun id member => live id (List.mem_append_right _ member)) realizedSecond
    exact Prod.ext first second
  | frame frame _ ih =>
    simp only [Slot.map, Frame.map_build, ih (frame.ids_build_lt live) realized]
  | kept form id inside same ih =>
    -- The node stays as it is, and rightly so: its parts are equal to their own revision.
    have below := (form.ids_build_lt live).2
    have equal := inside.eq_of_same below (fun call member => (realized call member).eq_of_id) same
    have mapped := ih below realized
    rw [equal] at mapped
    simp only [Slot.map, Form.map_build, mapped]
  | rebuilt form id id' _ _ _ ih =>
    simp only [Slot.map, Form.map_build, ih (form.ids_build_lt live).2 realized]

/-- **A transformation of leaves is a map.** If the hooks put mapped content in the place of every
leaf they are given, in whatever node they like, then the content of the result of a successful
transformation is that of the plain structural map over the tree. -/
theorem transform_erase_eq (hooks : LeafHooks σ) (f : LeafMap) (realizes : hooks.Realizes f)
    (flavor : Flavor) {c : Category} (tree tree' : Tree c) (next : NodeId) (memory : σ)
    (final : TransformState σ) (live : ∀ id ∈ tree.ids, id < next)
    (success : (hooks.transformer flavor).run tree next memory = (.ok tree', final)) :
    tree'.erase = (tree.mapLeaves f).erase := by
  rw [hooks.transformer_eq] at success
  obtain ⟨_, calls, _, revised⟩ :=
    recorded_transform hooks flavor (.tree c) tree ⟨next, memory⟩ final [] tree' success
  have realized : ∀ call ∈ calls, f.Realized call := by
    intro call member
    obtain ⟨made, old⟩ := revised.made_of_mem live call member
    exact realizes.realized made old
  rw [Tree.erase_mapLeaves]
  exact revised.erase_eq live realized

def headings : LeafMap where
  column content := if content.name = "title" then { content with name := "heading" } else content

/-- Counts the columns, and puts a new node in the place of each one that is called otherwise. -/
def renameTitles : LeafHooks Nat where
  column node := do
    modify (· + 1)
    return if node.value.name = "title" then .renew { node.value with name := "heading" } else .keep

theorem renameTitles_realizes : renameTitles.Realizes headings where
  table := by
    intro node memory change memory' said
    cases said
    rfl
  argument := by
    intro node memory change memory' said
    cases said
    rfl
  column := by
    intro node memory change memory' said
    cases said
    by_cases title : node.value.name = "title"
    · rw [if_pos title]
      exact (if_pos title).symm
    · rw [if_neg title]
      exact if_neg title

/-- Raises the price of all books with some title, or adds the one that is missing. -/
def repricing (name : String) (target key conflict upsert : NodeId) : Statement :=
  let column (name : String) : Column := { name, type := .varchar none }
  .extensionStatement (.conflictUpsert upsert ⟨1, { name := "books" }⟩
    (.cons (.assign target ⟨key, column name⟩
      (.argument ⟨3, { value := .text "Lean", type := .text }⟩))
      .nil)
    [⟨conflict, column name⟩]
    (.cons (.assign 5 ⟨6, column "price"⟩ (.column ⟨7, column "price"⟩)) .nil))

/-- The targets of assignments and the conflict columns are mapped, and the assignment of a price is
still the same node. -/
theorem transform_erase_eq_repricing :
    renameTitles.Realizes headings ∧
      (∀ id ∈ (repricing "title" 2 4 4 8).ids, id < 9) ∧
      (renameTitles.transformer .postgresql).run (repricing "title" 2 4 4 8) 9 0 =
        (.ok (repricing "heading" 10 9 11 12), ⟨13, 4⟩) ∧
      (repricing "heading" 10 9 11 12).erase =
        ((repricing "title" 2 4 4 8).mapLeaves headings).erase := by
  have live : ∀ id ∈ (repricing "title" 2 4 4 8).ids, id < 9 := by decide
  have success : (renameTitles.transformer .postgresql).run (repricing "title" 2 4 4 8) 9 0 =
      (.ok (repricing "heading" 10 9 11 12), ⟨13, 4⟩) := rfl
  exact ⟨renameTitles_realizes, live, success,
    transform_erase_eq renameTitles headings renameTitles_realizes .postgresql _ _ 9 0 _ live
      success⟩

end SqlTree
