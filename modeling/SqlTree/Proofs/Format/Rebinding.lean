import SqlTree.Proofs.Format.BoundValues
import SqlTree.Proofs.Transform.Revision

/-!
# Rebinding arguments

A hook on arguments that does not fail gives a statement new values. The traversal comes to the
arguments in the order in which the formatter binds them, so formatting the new statement gives the
old text, and a list of parameters that is found without any tree: go through the old list and ask
the hook at every parameter that comes from an argument. Those that come from a page or from a text
that is searched for stay.
-/

namespace SqlTree

/-! ### Where parameters come from -/

/-- A parameter of a tree, by where it comes from. -/
inductive Binding where
  /-- It is the value of an argument. -/
  | argument (node : Node Argument)
  /-- A page or a searched text has it. -/
  | own (value : Argument)
  deriving DecidableEq, Repr

def Binding.value : Binding → Argument
  | .argument node => node.value
  | .own value => value

/-- What each node binds: a page and a searched text stand behind the parts of their node. -/
def Tree.bindingContribution : Contribution Binding where
  argument node := [.argument node]
  after node := node.ownParameters.map .own

/-- The parameters of a tree from left to right, by where they come from. -/
def Tree.bindings {c : Category} (tree : Tree c) : List Binding :=
  tree.collect Tree.bindingContribution

def Slot.bindings (s : Slot) (parts : s.Part) : List Binding :=
  s.collect Tree.bindingContribution parts

theorem Slot.bindings_tree {c : Category} (tree : Tree c) :
    (Slot.tree c).bindings tree = tree.bindings :=
  rfl

theorem Slot.bindings_pair (s t : Slot) (first : s.Part) (second : t.Part) :
    (Slot.pair s t).bindings (first, second) = s.bindings first ++ t.bindings second :=
  rfl

/-- Parameters and bindings are the same list, seen from the text and from the tree. -/
theorem Tree.parameters_eq_bindings {c : Category} (tree : Tree c) :
    tree.parameters = tree.bindings.map Binding.value := by
  rw [List.map_eq_flatMap, bindings, flatMap_collect, parameters]
  congr 1
  simp [Contribution.flatMap, bindingContribution, List.flatMap_map, Binding.value,
    List.flatMap_singleton']

/-- A page and a searched text stand behind the parts of their node. -/
theorem Form.bindings_build {c : Category} {s : Slot} (form : Form c s) (id : NodeId)
    (parts : s.Part) :
    (form.build id parts).bindings =
      s.bindings parts ++ (form.build id parts).ownParameters.map .own :=
  form.collect_build Tree.bindingContribution id parts

theorem Frame.bindings_build {c : Category} {s : Slot} (frame : Frame c s) (parts : s.Part) :
    (frame.build parts).bindings = s.bindings parts := by
  cases frame with
  | scalarExtension | sourceExtension | extensionStatement | queryStatement | scalarStatement
  | sourceStatement => exact List.append_nil _
  | _ => rfl

/-- What a node binds by itself does not depend on its parts. -/
theorem Form.ownParameters_build {c : Category} {s : Slot} (form : Form c s) (id id' : NodeId)
    (parts parts' : s.Part) :
    (form.build id' parts').ownParameters = (form.build id parts).ownParameters := by
  cases form <;> rfl

/-! ### Hooks on arguments -/

variable {σ : Type}

/-- The content that a change puts in the place of a leaf. -/
def Change.content {α : Type} (node : Node α) : Change α → α
  | .keep => node.value
  | .renew content => content
  | .replace other => other.value

/-- A hook on arguments that may remember things, and does not fail. -/
abbrev ArgumentHook (σ : Type) := Node Argument → StateM σ (Change Argument)

namespace ArgumentHook

variable (hook : ArgumentHook σ)

/-- The hook as one of those for the leaves of a tree; the others keep what they are given. -/
def hooks : LeafHooks σ where
  argument node := ExceptT.lift (hook node)

/-- One node has one content: what the hook puts in the place of an argument under the same identity
is the argument. -/
def Faithful : Prop :=
  ∀ (node other : Node Argument) (memory : σ), ((hook node).run memory).1 = .replace other →
    other.id = node.id → other = node

def rebind : Binding → StateM σ Argument
  | .argument node => return (← hook node).content node
  | .own value => pure value

/-- What becomes of some parameters, from first to last, and what the hook remembers then. -/
def rebound (bindings : List Binding) (memory : σ) : List Argument × σ :=
  (bindings.mapM hook.rebind).run memory

theorem rebound_argument (node : Node Argument) (memory : σ) :
    hook.rebound [.argument node] memory =
      ([((hook node).run memory).1.content node], ((hook node).run memory).2) :=
  rfl

theorem rebound_own (values : List Argument) (memory : σ) :
    hook.rebound (values.map .own) memory = (values, memory) := by
  have kept : hook.rebind ∘ Binding.own = pure := rfl
  rw [rebound, List.mapM_map, kept, List.mapM_pure, List.map_id']
  rfl

/-- What the hook remembers is passed on from left to right. -/
theorem rebound_append (front back : List Binding) (memory : σ) :
    hook.rebound (front ++ back) memory =
      ((hook.rebound front memory).1 ++ (hook.rebound back (hook.rebound front memory).2).1,
        (hook.rebound back (hook.rebound front memory).2).2) := by
  rw [rebound, List.mapM_append]
  rfl

end ArgumentHook

/-! ### The traversal rebinds -/

/-- What a traversal that rebinds arguments has done to the parts of a node. -/
structure Rebound (hook : ArgumentHook σ) {s : Slot} (parts parts' : s.Part)
    (start final : TransformState σ) : Prop where
  grown : start.next ≤ final.next
  /-- The new parts bind what has become of the old parameters. -/
  bound : hook.rebound (s.bindings parts) start.memory =
    ((s.bindings parts').map Binding.value, final.memory)
  alike : Alike .values s parts parts'
  /-- Parts that count as unchanged are equal. -/
  equal : s.same parts' parts = true → parts' = parts

/-- Wherever the traversal starts, it succeeds and rebinds the arguments in the parts. -/
def Rebinds (hook : ArgumentHook σ) (flavor : Flavor) (s : Slot) (parts : s.Part) : Prop :=
  ∀ start : TransformState σ, (∀ id ∈ s.ids parts, id < start.next) →
    ∃ parts' final,
      (s.transform (hook.hooks.transformer flavor) parts).exec start = (.ok parts', final) ∧
        Rebound hook parts parts' start final

section Steps

variable {hook : ArgumentHook σ} {flavor : Flavor}

/-- A part that is left alone and binds nothing. -/
theorem Rebinds.of_kept {s : Slot} {parts : s.Part} (nothing : s.bindings parts = [])
    (ran : ∀ start, (s.transform (hook.hooks.transformer flavor) parts).exec start =
      (.ok parts, start)) : Rebinds hook flavor s parts := by
  intro start _
  refine ⟨parts, start, ran start, Nat.le_refl _, ?_, ?_, fun _ => rfl⟩
  · rw [nothing]
    rfl
  · exact s.alike_self Likeness.values_reflexive parts

/-- An argument is where the hook is called. -/
theorem Rebinds.argument (faithful : hook.Faithful) (node : Node Argument) :
    Rebinds hook flavor .argument node := by
  intro start live
  have old : node.id < start.next := live node.id List.mem_cons_self
  have bound := hook.rebound_argument node start.memory
  have alike (other : Node Argument) : Alike .values .argument node other := .argument trivial
  have ran : (Slot.argument.transform (hook.hooks.transformer flavor) node).exec start =
      (((hook node).run start.memory).1.apply node).exec
        { start with memory := ((hook node).run start.memory).2 } :=
    TransformM.exec_bind_of_ok (TransformM.exec_ofHook _ start)
  cases said : ((hook node).run start.memory).1 with
  | keep =>
    rw [said] at ran bound
    exact ⟨node, _, ran, Nat.le_refl _, bound, alike node, fun _ => rfl⟩
  | renew content =>
    rw [said] at ran bound
    refine ⟨⟨start.next, content⟩, _, ran, Nat.le_succ _, bound, alike _, fun same => ?_⟩
    have equal : start.next = node.id := beq_iff_eq.mp same
    exact absurd equal (Nat.ne_of_gt old)
  | replace other =>
    rw [said] at ran bound
    refine ⟨other, _, ran, Nat.le_refl _, bound, alike other, fun same => ?_⟩
    exact faithful node other start.memory said (beq_iff_eq.mp same)

theorem Rebinds.pair {a b : Slot} {first : a.Part} {second : b.Part}
    (rebindsFirst : Rebinds hook flavor a first) (rebindsSecond : Rebinds hook flavor b second) :
    Rebinds hook flavor (.pair a b) (first, second) := by
  intro start live
  obtain ⟨first', middle, ranFirst, one⟩ :=
    rebindsFirst start fun id member => live id (List.mem_append_left _ member)
  obtain ⟨second', final, ranSecond, two⟩ := rebindsSecond middle fun id member =>
    Nat.lt_of_lt_of_le (live id (List.mem_append_right _ member)) one.grown
  refine ⟨(first', second'), final, ?_, Nat.le_trans one.grown two.grown, ?_,
    .pair one.alike two.alike, fun same => ?_⟩
  · rw [Slot.transform, TransformM.exec_bind_of_ok ranFirst, TransformM.exec_bind_of_ok ranSecond]
    rfl
  · rw [Slot.bindings_pair, Slot.bindings_pair, hook.rebound_append, one.bound, two.bound,
      List.map_append]
  · obtain ⟨sameFirst, sameSecond⟩ := Bool.and_eq_true_iff.mp same
    rw [one.equal sameFirst, two.equal sameSecond]

theorem Rebinds.frame {c : Category} {s : Slot} (frame : Frame c s) {parts : s.Part}
    (rebinds : Rebinds hook flavor s parts) :
    Rebinds hook flavor (.tree c) (frame.build parts) := by
  intro start live
  obtain ⟨parts', final, ran, done⟩ := rebinds start (frame.ids_build_lt live)
  refine ⟨frame.build parts', final, ?_, done.grown, ?_, .frame frame done.alike, fun same => ?_⟩
  · rw [Slot.transform, LeafHooks.transformer_eq, transform_frame]
    exact TransformM.exec_bind_of_ok ran
  · rw [Slot.bindings_tree, Slot.bindings_tree, frame.bindings_build, frame.bindings_build,
      done.bound]
  · rw [done.equal ((frame.same_build parts' parts).symm.trans same)]

/-- The parameters of a node are rebound when those of its parts are. -/
theorem Rebound.bound_build {c : Category} {s : Slot} (form : Form c s) {parts parts' : s.Part}
    {start final : TransformState σ} (done : Rebound hook parts parts' start final)
    (id id' : NodeId) :
    hook.rebound (form.build id parts).bindings start.memory =
      ((form.build id' parts').bindings.map Binding.value, final.memory) := by
  have own : (List.map Binding.own (form.build id parts).ownParameters).map Binding.value =
      (form.build id parts).ownParameters :=
    List.map_map.trans (List.map_id _)
  rw [form.bindings_build, form.bindings_build, form.ownParameters_build id id' parts parts',
    List.map_append, own, hook.rebound_append, done.bound, hook.rebound_own]

/-- A node that is kept has the same bindings as one that is built anew, since one node has one
content. -/
theorem Rebinds.node {c : Category} {s : Slot} (form : Form c s) (id : NodeId) {parts : s.Part}
    (entered : form.entered flavor = true) (rebinds : Rebinds hook flavor s parts) :
    Rebinds hook flavor (.tree c) (form.build id parts) := by
  intro start live
  obtain ⟨old, inside⟩ := form.ids_build_lt live
  obtain ⟨parts', final, ran, done⟩ := rebinds start inside
  have ranNode : ((Slot.tree c).transform (hook.hooks.transformer flavor)
      (form.build id parts)).exec start =
      (Transformer.rebuild (s.same parts' parts) (form.build id parts)
        (form.build · parts')).exec final := by
    rw [Slot.transform, LeafHooks.transformer_eq, transform_form, if_pos entered]
    exact TransformM.exec_bind_of_ok ran
  have alike (id' : NodeId) :
      (form.build id parts).Alike .values (form.build id' parts') :=
    .node id id' (form.alike_self Likeness.values_reflexive) done.alike
  cases unchanged : s.same parts' parts with
  | true =>
    rw [unchanged] at ranNode
    have equal := done.equal unchanged
    subst equal
    exact ⟨_, final, ranNode, done.grown, done.bound_build form id id, alike id, fun _ => rfl⟩
  | false =>
    rw [unchanged] at ranNode
    refine ⟨form.build final.next parts', ⟨final.next + 1, final.memory⟩, ranNode,
      Nat.le_succ_of_le done.grown, done.bound_build form id final.next, alike final.next,
      fun same => ?_⟩
    -- The new identity is not that of a node that was there.
    have equal : final.next = id := beq_iff_eq.mp ((form.same_build _ _ _ _).symm.trans same)
    exact absurd equal (Nat.ne_of_gt (Nat.lt_of_lt_of_le old done.grown))

end Steps

/-- The traversal rebinds the arguments of every part whose extension nodes all belong to the
flavor. -/
theorem Slot.rebinds {hook : ArgumentHook σ} (faithful : hook.Faithful) (flavor : Flavor) (s : Slot)
    (parts : s.Part)
    (owned : ∀ node ∈ s.collect Tree.extensionContribution parts, flavor.owns node = true) :
    Rebinds hook flavor s parts := by
  induction s, parts using Slot.induction with
  | unit | table | column | noColumns => exact .of_kept rfl fun _ => rfl
  | argument node => exact .argument faithful node
  | moreColumns node nodes _ =>
    have nothing : Slot.columns.bindings (node :: nodes) = [] := by
      simp [Slot.bindings, Slot.collect, Tree.bindingContribution]
    have kept (nodes : List (Node Column)) :
        nodes.mapM (hook.hooks.transformer flavor).column = pure nodes := by
      have keep : (hook.hooks.transformer flavor).column = pure := rfl
      rw [keep, List.mapM_pure, List.map_id']
    refine .of_kept nothing fun start => ?_
    rw [Slot.transform, kept]
    rfl
  | pair a b first second ihFirst ihSecond =>
    exact .pair (ihFirst fun node member => owned node (List.mem_append_left _ member))
      (ihSecond fun node member => owned node (List.mem_append_right _ member))
  | frame frame parts ih =>
    exact .frame frame (ih fun node member => owned node (frame.mem_collect_build member))
  | @node c s form id parts ih =>
    refine .node form id ?_
      (ih fun node member => owned node (form.mem_collect_build (.inr member)))
    by_cases extension : c = .extension
    · subst extension
      rw [form.entered_extension flavor id parts]
      exact owned _ (form.mem_collect_build (.inl List.mem_cons_self))
    · exact form.entered_base flavor extension

/-- All extension nodes of a statement that can be formatted belong to the flavor. -/
theorem Tree.owned_of_offending {flavor : Flavor} {statement : Statement}
    (fine : statement.offending flavor = []) :
    ∀ node ∈ statement.extensionNodes, flavor.owns node = true := by
  intro node member
  cases owned : flavor.owns node with
  | true => rfl
  | false =>
    have offends : (flavor.offence node).isSome = true := by
      rw [flavor.offence_of_not_owned owned]
      rfl
    exact absurd offends (List.filter_eq_nil_iff.mp fine node member)

/-- **Rewriting arguments commutes with formatting.** If a statement can be formatted, then a hook
that gives its arguments new values succeeds, and the new statement can be formatted, to the same
text. Its parameters are the old ones, where the hook has been asked at each one that comes from an
argument, from first to last; what it remembers in the end is the same. Pages and searched texts
keep their parameters. Identities from `next` on are not in use. -/
theorem format_rebound (hook : ArgumentHook σ) (faithful : hook.Faithful) (flavor : Flavor)
    (options : FormatOptions) (statement : Statement) (formatted : Formatted)
    (success : format flavor.dialect options statement = .ok formatted) (next : NodeId)
    (memory : σ) (live : ∀ id ∈ statement.ids, id < next) :
    formatted.parameters = statement.bindings.map Binding.value ∧
      ∃ statement' next',
        (hook.hooks.transformer flavor).run statement next memory =
            (.ok statement', ⟨next', (hook.rebound statement.bindings memory).2⟩) ∧
          format flavor.dialect options statement' =
            .ok ⟨formatted.sql, (hook.rebound statement.bindings memory).1⟩ := by
  have fine := (format_succeeds_iff flavor options statement).mp ⟨formatted, success⟩
  obtain ⟨statement', final, ran, done⟩ :=
    Slot.rebinds faithful flavor (.tree .statement) statement (Tree.owned_of_offending fine)
      ⟨next, memory⟩ live
  have bound : hook.rebound statement.bindings memory =
      (statement'.bindings.map Binding.value, final.memory) := done.bound
  have old := format_eq_formatted success
  have passed : (statement'.offending flavor).head?.bind flavor.offence = none := by
    rw [← done.alike.first_offence flavor, fine]
    rfl
  refine ⟨?_, statement', final.next, ?_, ?_⟩
  · rw [old, Tree.formatted, statement.parameters_eq_bindings]
  · rw [bound]
    exact ran
  · rw [format_eq, passed, Option.elim_none, bound, old, Tree.formatted, Tree.formatted,
      statement'.parameters_eq_bindings, done.alike.render_eq flavor options.layout 0]

/-- Takes new values from a list, and keeps the arguments for which there are none. -/
def takeValues : ArgumentHook (List Argument) := fun _ => do
  match ← get with
  | [] => return .keep
  | value :: rest =>
    set rest
    return .renew value

theorem takeValues_faithful : takeValues.Faithful := by
  intro node other memory said
  cases memory <;> cases said

/-- Three of the four arguments of the union are given new values; the last one stays, as do the
pages and the searched text between them. -/
theorem format_rebound_pagedUnion :
    let text (value : String) : Argument := ⟨.text value, .text⟩
    let parameters : List Argument :=
      [text "a", text "b", ⟨.int 0, .long⟩, ⟨.int 3, .long⟩, text "c", ⟨.text "x", .varchar none⟩,
        ⟨.int 5, .int⟩, ⟨.int 6, .long⟩, ⟨.int 9223372036854775807, .long⟩]
    takeValues.Faithful ∧ (∀ id ∈ pagedUnion.ids, id < 12) ∧
      format Flavor.mysql.dialect {} pagedUnion = .ok pagedUnionText ∧
      ∃ statement' next',
        (takeValues.hooks.transformer .mysql).run pagedUnion 12 [text "a", text "b", text "c"] =
            (.ok statement', ⟨next', []⟩) ∧
          format Flavor.mysql.dialect {} statement' = .ok ⟨pagedUnionText.sql, parameters⟩ := by
  intro text parameters
  have live : ∀ id ∈ pagedUnion.ids, id < 12 := by decide
  have success : format Flavor.mysql.dialect {} pagedUnion = .ok pagedUnionText :=
    format_eq_ok (by decide +kernel)
  obtain ⟨-, rebound⟩ := format_rebound takeValues takeValues_faithful .mysql {} pagedUnion
    pagedUnionText success 12 [text "a", text "b", text "c"] live
  exact ⟨takeValues_faithful, live, success, rebound⟩

end SqlTree
