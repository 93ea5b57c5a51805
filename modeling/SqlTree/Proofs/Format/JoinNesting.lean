import SqlTree.Proofs.Format.UniqueReading
import SqlTree.Proofs.Text.JoinText

/-!
# What the text of joins tells about their nesting

Two sources of tables and joins have the same text exactly if their rows are shown alike: the same
tables, joins and conditions from left to right. How the joins are nested is told by the text of a
source exactly if its joins are definite; for every other source there is one that is nested
differently and has the same text.
-/

namespace SqlTree

/-! ## Sources of tables and joins -/

def Tree.toOption {c : Category} : Tree (.option c) → Option (Tree c)
  | .absent => none
  | .present content => some content

/-- Whether a source has only tables and joins, with operator expressions as conditions. -/
def Tree.joined : {c : Category} → Tree c → Bool
  | _, .table _ => true
  | _, .join _ _ left right condition => left.joined && right.joined && condition.operational
  | _, _ => false

/-- The joins of a source. What is neither a join nor a table counts as a table without a name. -/
def Tree.joinTree : {c : Category} → Tree c → JoinTree
  | _, .table node => .table node.value
  | _, .join _ kind left right condition =>
    .join kind left.joinTree right.joinTree condition.toOption
  | _, _ => .table { name := "" }

/-- The parts of a join are again tables and joins, with an operator expression as condition. -/
theorem Tree.joined_parts {id : NodeId} {kind : JoinKind} {left right : Source}
    {condition : Tree (.option .scalar)}
    (joined : (Tree.join id kind left right condition).joined = true) :
    left.joined = true ∧ right.joined = true ∧ condition.operational = true := by
  obtain ⟨sides, operational⟩ := Bool.and_eq_true_iff.mp joined
  obtain ⟨leftJoined, rightJoined⟩ := Bool.and_eq_true_iff.mp sides
  exact ⟨leftJoined, rightJoined, operational⟩

/-- What holds of tables, and of joins if it holds of both sides, holds of every source that has
nothing else. -/
theorem Tree.joined_induction {motive : (source : Source) → source.joined = true → Prop}
    (table : ∀ node, motive (.table node) rfl)
    (join : ∀ id kind left right condition joined leftJoined rightJoined,
      motive left leftJoined → motive right rightJoined → condition.operational = true →
      motive (.join id kind left right condition) joined) :
    (source : Source) → (joined : source.joined = true) → motive source joined
  | .table node, _ => table node
  | .join id kind left right condition, joined =>
    have ⟨leftJoined, rightJoined, operational⟩ := joined_parts joined
    join id kind left right condition joined leftJoined rightJoined
      (joined_induction table join left leftJoined) (joined_induction table join right rightJoined)
      operational

/-- What the text can show of such a source is what it can show of its joins. -/
theorem Tree.shown_joined {source : Source} (joined : source.joined = true) :
    source.shown = source.joinTree.shown.toSource := by
  induction source, joined using Tree.joined_induction with
  | table node => rfl
  | join id kind left right condition _ _ _ ihLeft ihRight operational =>
    have conditions : condition.shown = .ofOption (condition.toOption.map Tree.shown) := by
      cases condition <;> rfl
    exact congr (congrArg₂ (Tree.join 0 kind) ihLeft ihRight) conditions

/-- There are no extension nodes in such sources, so they can always be formatted. -/
theorem Tree.extensionNodes_joined {source : Source} (joined : source.joined = true) :
    source.extensionNodes = [] := by
  induction source, joined using Tree.joined_induction with
  | table node => rfl
  | join id kind left right condition _ _ _ ihLeft ihRight operational =>
    have conditions := Tree.extensionNodes_of_operational operational
    exact (congrArg (fun parts => [] ++ parts ++ [])
      (congrArg₂ (· ++ ·) (congrArg₂ (· ++ ·) ihLeft ihRight) conditions) :)

theorem JoinTree.operational_join_iff {kind : JoinKind} {left right : JoinTree}
    {test : Option Scalar} :
    (JoinTree.join kind left right test).row.Operational ↔
      left.row.Operational ∧ right.row.Operational ∧ ∀ own ∈ test, own.operational = true := by
  simp only [JoinRow.Operational, row, steps, List.mem_append, List.mem_cons, reduceCtorEq,
    false_or, List.mem_map, Option.mem_toList, Option.mem_def, JoinStep.on.injEq, exists_eq_right,
    or_imp, forall_and]

theorem Tree.operational_joined {source : Source} (joined : source.joined = true) :
    source.joinTree.row.Operational := by
  induction source, joined using Tree.joined_induction with
  | table node => exact fun test member => nomatch member
  | join id kind left right condition _ _ _ ihLeft ihRight operational =>
    refine JoinTree.operational_join_iff.mpr ⟨ihLeft, ihRight, fun own is => ?_⟩
    cases condition with
    | absent => cases is
    | present content => cases is; exact operational

theorem Tree.toOption_ofOption {c : Category} (content : Option (Tree c)) :
    (ofOption content).toOption = content := by
  cases content <;> rfl

/-- Every tree of joins is that of some source. -/
theorem JoinTree.joinTree_toSource (tree : JoinTree) : tree.toSource.joinTree = tree := by
  induction tree with
  | table t => rfl
  | join kind left right test ihLeft ihRight =>
    rw [toSource, Tree.joinTree, ihLeft, ihRight, Tree.toOption_ofOption]

/-- Every tree of joins with operator expressions as conditions is that of a source. -/
theorem JoinTree.joined_toSource {tree : JoinTree} (operational : tree.row.Operational) :
    tree.toSource.joined = true := by
  induction tree with
  | table t => rfl
  | join kind left right test ihLeft ihRight =>
    obtain ⟨leftOk, rightOk, own⟩ := operational_join_iff.mp operational
    have condition : (Tree.ofOption test).operational = true := by
      cases test with
      | none => rfl
      | some content => exact own content rfl
    rw [toSource, Tree.joined, ihLeft leftOk, ihRight rightOk, condition]
    rfl

open Grammar in
theorem JoinTree.render_row_join (flavor : Flavor) (layout : Layout) (depth : Nat)
    (kind : JoinKind) (left right : JoinTree) (test : Option Scalar) :
    (JoinTree.join kind left right test).row.render flavor layout depth =
      stanza layout depth [left.row.render flavor layout depth,
        phrase ([kind.keyword.toList, right.row.render flavor layout depth]
          ++ test.elim [] fun test => ["ON".toList, test.render flavor layout depth])] := by
  cases test <;>
    simp [JoinRow.render, row, first, steps, JoinStep.render, stanza, phrase, intercalate_cons_eq]

/-- The text of a source is that of its row: where the row was nested does not show. -/
theorem Tree.render_joined (flavor : Flavor) (layout : Layout) (depth : Nat) {source : Source}
    (joined : source.joined = true) :
    source.render flavor layout depth = source.joinTree.row.render flavor layout depth := by
  induction source, joined using Tree.joined_induction with
  | table node => exact (List.append_nil _).symm
  | join id kind left right condition _ _ _ ihLeft ihRight operational =>
    rw [joinTree, JoinTree.render_row_join, ← ihLeft, ← ihRight]
    cases condition <;> rfl

/-! ## The text shows the row -/

/-- A row has the text of what it shows. -/
theorem JoinRow.render_shown (flavor : Flavor) (layout : Layout) (depth : Nat) {row : JoinRow}
    (operational : row.Operational) :
    row.shown.render flavor layout depth = row.render flavor layout depth := by
  have steps : row.steps.flatMap (fun step => step.shown.render flavor layout depth) =
      row.steps.flatMap (JoinStep.render flavor layout depth) := by
    refine List.flatMap_congr fun step member => ?_
    cases step with
    | joins kind t => rw [JoinStep.shown, JoinStep.render, JoinStep.render, table_shown]
    | on test =>
      rw [JoinStep.shown, JoinStep.render, JoinStep.render,
        Tree.render_shown flavor layout depth (operational test member)]
  rw [JoinRow.render, JoinRow.render, JoinRow.shown, table_shown, List.flatMap_map, steps]

/-- Formatting such a source succeeds, and gives the text of its row. -/
theorem format_joined (flavor : Flavor) (options : FormatOptions) {a : Source}
    (joined : a.joined = true) :
    ∃ formatted, format flavor.dialect options (.sourceStatement a) = .ok formatted ∧
      formatted.sql.toList = a.joinTree.row.render flavor options.layout 0 := by
  have base : (Tree.sourceStatement a).extensionNodes = [] :=
    (List.append_nil _).trans (Tree.extensionNodes_joined joined)
  have text := Tree.render_joined flavor options.layout 0 joined
  have starts : StartsNonblank (a.render flavor options.layout 0) := by
    obtain ⟨rest, quote⟩ := table_eq_cons flavor a.joinTree.row.first
    rw [text, JoinRow.render, quote]
    exact ⟨flavor.quote, rfl, by cases flavor <;> decide⟩
  rw [← text]
  exact format_eq_render flavor options base starts

/-- Two sources of tables and joins have the same text exactly if their rows are shown alike. -/
theorem row_render_eq_iff (flavor : Flavor) (options : FormatOptions) {row row' : JoinRow}
    (operational : row.Operational) (operational' : row'.Operational) :
    row.render flavor options.layout 0 = row'.render flavor options.layout 0 ↔
      row.shown = row'.shown := by
  refine ⟨JoinRow.shown_eq_of_render operational operational', fun same => ?_⟩
  rw [← row.render_shown flavor options.layout 0 operational, same,
    row'.render_shown flavor options.layout 0 operational']

/-! ## When the text shows the nesting -/

/-- Sources of tables and joins are shown alike exactly if their joins are. -/
theorem Tree.shown_joined_iff {a b : Source} (first : a.joined = true) (second : b.joined = true) :
    a.shown = b.shown ↔ a.joinTree.shown = b.joinTree.shown := by
  rw [shown_joined first, shown_joined second]
  have injective : Function.Injective JoinTree.toSource :=
    Function.LeftInverse.injective JoinTree.joinTree_toSource
  exact injective.eq_iff

/-- A source whose joins are not definite shares its row with one that is not shown alike. -/
theorem Tree.exists_joined_shown_ne {a : Source} (joined : a.joined = true)
    (indefinite : a.joinTree.definite = false) :
    ∃ b : Source, b.joined = true ∧ b.joinTree.row = a.joinTree.row ∧ b.shown ≠ a.shown := by
  obtain ⟨other, rows, different⟩ := JoinTree.exists_shown_ne indefinite
  have operational : other.row.Operational := rows ▸ operational_joined joined
  have otherJoined := JoinTree.joined_toSource operational
  have same := other.joinTree_toSource
  refine ⟨other.toSource, otherJoined, by rw [same, rows], fun alike => different ?_⟩
  rw [← same]
  exact (shown_joined_iff otherJoined joined).mp alike

def keyed (name : String) : Source × Scalar :=
  (.table ⟨1, { name, schema := some "shop" }⟩,
    .column ⟨2, { table := some name, name := "id", type := .long }⟩)

/-- Orders with their items, if they have some, and all days. -/
def ordersByDay : Source :=
  let matching : Scalar := .binary 3 .equal (keyed "order").2 (keyed "item").2 .boolean
  .join 4 .cross (.join 5 .left (keyed "order").1 (keyed "item").1 (.present matching))
    (keyed "day").1 .absent

/-- Three tables joined to all rows of each other, nested to the left and to the right. -/
def crossings : Source × Source :=
  let table (name : String) : Source := .table ⟨1, { name }⟩
  (.join 2 .cross (.join 3 .cross (table "a") (table "b") .absent) (table "c") .absent,
    .join 2 .cross (table "a") (.join 3 .cross (table "b") (table "c") .absent) .absent)

def qualifiedTables : Source × Source :=
  (.table ⟨1, { name := "t", catalog := some "q" }⟩,
    .table ⟨1, { name := "t", schema := some "q" }⟩)

end SqlTree
