import SqlTree.Proofs.Transform.Revision

/-!
# Exact path copying

A transformation of leaves copies exactly the paths to the leaves it changes. At every position of a
tree the node is still the same one if and only if every hook call made inside it returned the leaf
it was given; so one new leaf has all nodes above it built anew, and no other node.

The calls are recorded from left to right, one for each leaf (`Revised.given_eq`). Those made inside
a node are therefore the share of the record that `Tree.locate` deals out to its position.
-/

namespace SqlTree

/-- What a revision has put in the place of a node, against the calls made inside that node. -/
structure Copied (inside : List LeafCall) {c : Category} (node node' : Tree c) : Prop where
  /-- It is the same node exactly if every call returned the node it was given. -/
  same_iff : node'.same node = true ↔ ∀ call ∈ inside, call.returned.id = call.given.id
  /-- If the calls did not change any content either, nothing has changed. -/
  unchanged : (∀ call ∈ inside, call.returned = call.given) → node' = node

/-- Wherever a path leads in a tree, it leads to the copy of that node in the other tree. -/
def Tracks (calls : List LeafCall) {c : Category} (tree tree' : Tree c) : Prop :=
  ∀ (path : List Nat) (d : Category) (node : Tree d) (inside : List LeafCall),
    tree.locate calls path = some (⟨d, node⟩, inside) →
      ∃ node' : Tree d, tree'.locate calls path = some (⟨d, node'⟩, inside) ∧
        Copied inside node node'

/-- Trees that track one another in order, each with the calls made inside it. -/
inductive TracksAll : List LeafCall → List AnyTree → List AnyTree → Prop where
  | nil : TracksAll [] [] []
  | cons {c : Category} {tree tree' : Tree c} {calls more : List LeafCall}
      {trees trees' : List AnyTree} (count : calls.length = tree.leaves.length)
      (count' : calls.length = tree'.leaves.length) (tracks : Tracks calls tree tree')
      (rest : TracksAll more trees trees') :
      TracksAll (calls ++ more) (⟨c, tree⟩ :: trees) (⟨c, tree'⟩ :: trees')

namespace TracksAll

variable {calls more : List LeafCall} {trees trees' others others' : List AnyTree}

theorem single {c : Category} {tree tree' : Tree c} (count : calls.length = tree.leaves.length)
    (count' : calls.length = tree'.leaves.length) (tracks : Tracks calls tree tree') :
    TracksAll calls [⟨c, tree⟩] [⟨c, tree'⟩] := by
  have one := TracksAll.cons count count' tracks .nil
  rw [List.append_nil] at one
  exact one

/-- Calls are divided among the trees by their leaves. -/
theorem append (first : TracksAll calls trees trees') (second : TracksAll more others others') :
    TracksAll (calls ++ more) (trees ++ others) (trees' ++ others') := by
  induction first with
  | nil => exact second
  | cons count count' tracks _ ih =>
    rw [List.append_assoc]
    exact .cons count count' tracks ih

/-- Entering trees that track one another leads to trees that do so. -/
theorem enter (all : TracksAll calls trees trees') {i : Nat} {d : Category} {part : Tree d}
    {share : List LeafCall} (entered : Tree.enter trees calls i = some (⟨d, part⟩, share)) :
    ∃ part' : Tree d, Tree.enter trees' calls i = some (⟨d, part'⟩, share) ∧
      Tracks share part part' := by
  induction all generalizing i with
  | nil => cases entered
  | @cons c tree tree' calls more trees trees' count count' tracks _ ih =>
    cases i with
    | zero =>
      have taken : (calls ++ more).take tree.leaves.length = calls := List.take_left' count
      have taken' : (calls ++ more).take tree'.leaves.length = calls := List.take_left' count'
      simp only [Tree.enter, taken, Option.some.injEq, Prod.mk.injEq] at entered
      obtain ⟨⟨rfl, rfl⟩, rfl⟩ := entered
      refine ⟨tree', ?_, tracks⟩
      simp only [Tree.enter, taken']
    | succ i =>
      have dropped : (calls ++ more).drop tree.leaves.length = more := List.drop_left' count
      have dropped' : (calls ++ more).drop tree'.leaves.length = more := List.drop_left' count'
      simp only [Tree.enter, dropped] at entered
      simp only [Tree.enter, dropped']
      exact ih entered

end TracksAll

namespace Tracks

variable {calls : List LeafCall} {c : Category} {tree tree' : Tree c}

/-- A tree tracks another one if the root is copied and every part that can be entered tracks the
one in its place. -/
theorem of_enter (root : Copied calls tree tree')
    (enter : ∀ {i : Nat} {d : Category} {part : Tree d} {share : List LeafCall},
      Tree.enter tree.parts calls i = some (⟨d, part⟩, share) →
        ∃ part' : Tree d, Tree.enter tree'.parts calls i = some (⟨d, part'⟩, share) ∧
          Tracks share part part') : Tracks calls tree tree' := by
  intro path d node inside located
  cases path with
  | nil =>
    simp only [Tree.locate, Option.some.injEq, Prod.mk.injEq] at located
    obtain ⟨⟨rfl, rfl⟩, rfl⟩ := located
    exact ⟨tree', rfl, root⟩
  | cons i path =>
    obtain ⟨⟨⟨e, part⟩, share⟩, entered, located⟩ := Option.bind_eq_some_iff.mp located
    obtain ⟨part', entered', tracks⟩ := enter entered
    obtain ⟨node', located', copied⟩ := tracks path d node inside located
    refine ⟨node', ?_, copied⟩
    rw [Tree.locate, entered']
    exact located'

/-- A tree is tracked if its root is copied and its parts are tracked. -/
theorem of_parts (root : Copied calls tree tree')
    (parts : TracksAll calls tree.parts tree'.parts) : Tracks calls tree tree' :=
  of_enter root parts.enter

/-- A tree without parts has one position only. -/
theorem of_leaf (root : Copied calls tree tree') (none : tree.parts = []) :
    Tracks calls tree tree' := by
  refine of_enter root fun entered => ?_
  rw [none] at entered
  cases entered

end Tracks

/-- The items of a part are among those of all parts. -/
theorem Tree.enter_sublist {α : Type} {trees : List AnyTree} {items : List α} {i : Nat}
    {part : AnyTree} {share : List α} (entered : Tree.enter trees items i = some (part, share)) :
    share.Sublist items := by
  induction trees generalizing items i with
  | nil => cases entered
  | cons tree rest ih =>
    cases i with
    | zero =>
      simp only [Tree.enter, Option.some.injEq, Prod.mk.injEq] at entered
      obtain ⟨rfl, rfl⟩ := entered
      exact List.take_sublist _ _
    | succ i => exact (ih entered).trans (List.drop_sublist _ _)

/-- The items of a position are among those of the tree. -/
theorem Tree.locate_sublist {α : Type} {path : List Nat} {c : Category} {tree : Tree c}
    {items : List α} {node : AnyTree} {inside : List α}
    (located : tree.locate items path = some (node, inside)) : inside.Sublist items := by
  induction path generalizing c items with
  | nil =>
    simp only [Tree.locate, Option.some.injEq, Prod.mk.injEq] at located
    obtain ⟨rfl, rfl⟩ := located
    exact List.Sublist.refl _
  | cons i path ih =>
    obtain ⟨⟨part, share⟩, entered, located⟩ := Option.bind_eq_some_iff.mp located
    exact (ih located).trans (Tree.enter_sublist entered)

/-- Where every call kept its leaf, a tree tracks itself. -/
theorem Tracks.self {calls : List LeafCall} {c : Category} (tree : Tree c)
    (kept : ∀ call ∈ calls, call.returned.id = call.given.id) : Tracks calls tree tree := by
  intro path d node inside located
  have within := (Tree.locate_sublist located).subset
  have keptInside : ∀ call ∈ inside, call.returned.id = call.given.id :=
    fun call member => kept call (within member)
  exact ⟨node, located, ⟨fun _ => keptInside, fun _ => Tree.same_self node⟩, fun _ => rfl⟩

namespace Revised

variable {made : LeafCall → Prop} {next : NodeId} {calls : List LeafCall}

/-- A revision copies the root of a tree exactly. -/
theorem copied {c : Category} {tree tree' : Tree c}
    (revised : Revised made next (.tree c) calls tree tree') (live : ∀ id ∈ tree.ids, id < next) :
    Copied calls tree tree' where
  same_iff := by
    have same : tree'.same tree = calls.all LeafCall.kept := revised.same_eq live
    rw [same, List.all_eq_true]
    exact forall₂_congr fun _ _ => beq_iff_eq
  unchanged := revised.eq_of_returned live

/-- What takes the place of a tree in a revision tracks that tree, if it does so in full. -/
theorem tracksAll_single {c : Category} {tree tree' : Tree c}
    (revised : Revised made next (.tree c) calls tree tree') (tracks : Tracks calls tree tree') :
    TracksAll calls [⟨c, tree⟩] [⟨c, tree'⟩] := by
  have count := congrArg List.length revised.given_eq
  rw [List.length_map] at count
  exact .single count revised.length_eq tracks

/-- A leaf is a tree of its own, and the only position in it. -/
theorem tracksAll_leaf {c : Category} {s : Slot} {given returned : s.Part}
    (revised : Revised made next s calls given returned) (frame : Frame c s)
    (none : (frame.build given).parts = []) (live : ∀ id ∈ (frame.build given).ids, id < next) :
    TracksAll calls [⟨c, frame.build given⟩] [⟨c, frame.build returned⟩] := by
  have framed := Revised.frame frame revised
  exact framed.tracksAll_single (.of_leaf (framed.copied live) none)

/-- A revision tracks the trees it revises, at every position. -/
theorem tracksAll {s : Slot} {parts parts' : s.Part}
    (revised : Revised made next s calls parts parts') (live : ∀ id ∈ s.ids parts, id < next) :
    TracksAll calls (s.trees parts) (s.trees parts') := by
  induction revised with
  | unit | noColumns => exact .nil
  | table call => exact (Revised.table call).tracksAll_leaf .table rfl live
  | column call => exact (Revised.column call).tracksAll_leaf .column rfl live
  | argument call => exact (Revised.argument call).tracksAll_leaf .argument rfl live
  | moreColumns call _ ih =>
    have revisedFirst : Revised made next .column _ _ _ := .column call
    have first := revisedFirst.tracksAll_leaf .column rfl
      fun id member => live id (List.mem_append_left _ member)
    have rest := ih fun id member => live id (List.mem_append_right _ member)
    exact first.append rest
  | pair _ _ ihFirst ihSecond =>
    have first := ihFirst fun id member => live id (List.mem_append_left _ member)
    have second := ihSecond fun id member => live id (List.mem_append_right _ member)
    exact first.append second
  | @frame c s calls parts parts' frame inside ih =>
    have framed := Revised.frame frame inside
    refine framed.tracksAll_single ?_
    rcases frame.parts_build with none | held
    · exact .of_leaf (framed.copied live) (none parts)
    · refine .of_parts (framed.copied live) ?_
      rw [held parts, held parts']
      exact ih (frame.ids_build_lt live)
  | @kept c s calls parts parts' form id inside same _ =>
    have keptNode := Revised.kept form id inside same
    have keptAll := (keptNode.copied live).same_iff.mp (Tree.same_self _)
    exact keptNode.tracksAll_single (.self _ keptAll)
  | @rebuilt c s calls parts parts' form id id' inside changed fresh ih =>
    have rebuiltNode := Revised.rebuilt form id id' inside changed fresh
    refine rebuiltNode.tracksAll_single (.of_parts (rebuiltNode.copied live) ?_)
    rw [form.parts_build, form.parts_build]
    exact ih (form.ids_build_lt live).2

/-- The induction over the revision: every node is copied together with what is inside it. -/
theorem tracks {c : Category} {tree tree' : Tree c}
    (revised : Revised made next (.tree c) calls tree tree') (live : ∀ id ∈ tree.ids, id < next) :
    Tracks calls tree tree' := by
  have count := congrArg List.length revised.given_eq
  rw [List.length_map] at count
  have whole : Tree.enter [⟨c, tree⟩] calls 0 = some (⟨c, tree⟩, calls) := by
    simp only [Tree.enter, ← show calls.length = tree.leaves.length from count, List.take_length]
  obtain ⟨part, entered, tracked⟩ := (revised.tracksAll live).enter whole
  simp only [Slot.trees, Tree.enter, Option.some.injEq, Prod.mk.injEq] at entered
  obtain ⟨⟨_, rfl⟩, _⟩ := entered
  exact tracked

end Revised

/-- **Exact path copying.** Take a successful transformation by any hooks on leaves, which may
remember things and may keep, renew or replace each leaf they are given, on a tree whose identities
are all taken before `next`. Recording the hook calls changes nothing; they are made for the leaves
of the tree from left to right; and wherever a path leads in the tree, it leads in the result to a
node that is the same one if and only if every call made inside returned the node it was given. If
those calls also left the content of their leaves alone, the two are equal in full. -/
theorem transform_same_iff {σ : Type} (hooks : LeafHooks σ) (flavor : Flavor) {c : Category}
    (tree tree' : Tree c) (next : NodeId) (memory : σ) (final : TransformState σ)
    (live : ∀ id ∈ tree.ids, id < next)
    (success : (hooks.transformer flavor).run tree next memory = (.ok tree', final)) :
    ∃ calls : List LeafCall,
      (hooks.visitor.recording.transformer flavor).run tree next (memory, []) =
          (.ok tree', ⟨final.next, final.memory, calls⟩) ∧
        calls.map LeafCall.given = tree.leaves ∧
        ∀ (path : List Nat) (d : Category) (node : Tree d) (inside : List LeafCall),
          tree.locate calls path = some (⟨d, node⟩, inside) →
            ∃ node' : Tree d, tree'.locate calls path = some (⟨d, node'⟩, inside) ∧
              (node'.same node = true ↔ ∀ call ∈ inside, call.returned.id = call.given.id) ∧
              ((∀ call ∈ inside, call.returned = call.given) → node' = node) := by
  rw [hooks.transformer_eq] at success
  obtain ⟨_, calls, recorded, revised⟩ :=
    recorded_transform hooks flavor (.tree c) tree ⟨next, memory⟩ final [] tree' success
  refine ⟨calls, recorded, revised.given_eq, ?_⟩
  intro path d node inside located
  obtain ⟨node', located', copied⟩ := revised.tracks live path d node inside located
  exact ⟨node', located', copied.same_iff, copied.unchanged⟩

/-- Counts the columns, and puts a new node with the same content in the place of each title. -/
def renewTitles : LeafHooks Nat where
  column node := do
    modify (· + 1)
    return if node.value.name = "title" then .renew node.value else .keep

/-- A search for books by title, the cheapest ones first, where the title is one node in two
places. -/
def bookSearch (title other search query : NodeId) : Statement :=
  let titleColumn : Column := { name := "title", type := .varchar none }
  let priceColumn : Node Column := ⟨2, { name := "price", type := .long }⟩
  .queryStatement (.select query
    (.cons (.column ⟨title, titleColumn⟩) (.cons (.column priceColumn) .nil))
    (.table ⟨3, { name := "books" }⟩)
    (.present (.scalarExtension (.matchAgainst search (.cons (.column ⟨other, titleColumn⟩) .nil)
      "lean" none)))
    .nil .absent false (.cons (.order 5 (.column priceColumn) false) .nil) {})

/-- A title with the content it had before: the match and the query above it are new nodes, and the
order entry beside it is not. -/
theorem transform_same_iff_bookSearch :
    (∀ id ∈ (bookSearch 1 1 4 6).ids, id < 7) ∧
      (renewTitles.transformer .mysql).run (bookSearch 1 1 4 6) 7 0 =
        (.ok (bookSearch 7 8 9 10), ⟨11, 4⟩) ∧
      ∃ calls : List LeafCall,
        (renewTitles.visitor.recording.transformer .mysql).run (bookSearch 1 1 4 6) 7 (0, []) =
            (.ok (bookSearch 7 8 9 10), ⟨11, 4, calls⟩) ∧
          calls.map LeafCall.given = (bookSearch 1 1 4 6).leaves ∧
          ∀ (path : List Nat) (d : Category) (node : Tree d) (inside : List LeafCall),
            (bookSearch 1 1 4 6).locate calls path = some (⟨d, node⟩, inside) →
              ∃ node' : Tree d,
                (bookSearch 7 8 9 10).locate calls path = some (⟨d, node'⟩, inside) ∧
                  (node'.same node = true ↔ ∀ call ∈ inside, call.returned.id = call.given.id) ∧
                  ((∀ call ∈ inside, call.returned = call.given) → node' = node) := by
  have live : ∀ id ∈ (bookSearch 1 1 4 6).ids, id < 7 := by decide
  have success : (renewTitles.transformer .mysql).run (bookSearch 1 1 4 6) 7 0 =
      (.ok (bookSearch 7 8 9 10), ⟨11, 4⟩) := rfl
  exact ⟨live, success, transform_same_iff renewTitles .mysql _ _ 7 0 _ live success⟩

end SqlTree
