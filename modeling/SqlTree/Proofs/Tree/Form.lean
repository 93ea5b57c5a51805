import SqlTree.Proofs.Tree.Collect
import SqlTree.Tree.Identity

/-!
# Trees by form

Most functions on trees treat all nodes alike: they do something to the parts of a node, from left
to right, and keep the rest. Here a node is taken apart into its form (the constructor with those of
its fields that are no parts), its identity and its parts. A law about such a function is then
stated once for all forms, and induction over trees has one case for nodes and one for what merely
holds other trees, in place of one for each constructor.
-/

namespace SqlTree

/-- What a constructor has for parts. -/
inductive Slot where
  | unit
  | tree (c : Category)
  | table
  | column
  | argument
  | columns
  | pair (first second : Slot)

namespace Slot

abbrev Part : Slot → Type
  | unit => Unit
  | tree c => Tree c
  | table => Node Table
  | column => Node Column
  | argument => Node Argument
  | columns => List (Node Column)
  | pair first second => first.Part × second.Part

abbrev scalar : Slot := tree .scalar

abbrev scalars : Slot := tree (.list .scalar)

abbrev condition : Slot := tree (.option .scalar)

abbrev source : Slot := tree .source

abbrev query : Slot := tree .query

abbrev orders : Slot := tree (.list .order)

abbrev row : Slot := tree (.list .assignment)

end Slot

/-- A constructor of nodes that have an identity of their own, with the fields that are no parts. -/
inductive Form : Category → Slot → Type where
  | declare (name : Option String) : Form .scalar .scalar
  | binary (op : BinaryOperator) (type : SqlType) : Form .scalar (.pair .scalar .scalar)
  | unary (op : UnaryOperator) (type : SqlType) : Form .scalar .scalar
  | between (negated : Bool) : Form .scalar (.pair (.pair .scalar .scalar) .scalar)
  | inValues (negated : Bool) : Form .scalar (.pair .scalar .scalars)
  | inQuery (negated : Bool) : Form .scalar (.pair .scalar .query)
  | existsQuery (negated : Bool) : Form .scalar .query
  | aggregate (function : Aggregate) (distinct : Bool) (type : SqlType) : Form .scalar .condition
  | call (name : String) (type : SqlType) : Form .scalar .scalars
  | cast (type : SqlType) : Form .scalar .scalar
  | join (kind : JoinKind) : Form .source (.pair (.pair .source .source) .condition)
  | subquery (aliasName : Option String) : Form .source .query
  | select (distinct : Bool) (page : Page) :
      Form .query (.pair (.pair (.pair (.pair (.pair .scalars .source) .condition) .scalars)
        .condition) .orders)
  | union (all : Bool) (page : Page) : Form .query (.pair (.pair .query .query) .orders)
  | order (descending : Bool) : Form .order .scalar
  | assign : Form .assignment (.pair .column .scalar)
  | duplicateKeyUpsert : Form .extension (.pair (.pair .table .row) .row)
  | bulkInsert : Form .extension (.pair .table (.tree (.list (.list .assignment))))
  | naturalJoin : Form .extension (.pair .source .source)
  | matchAgainst (search : String) (modifier : Option SearchModifier) : Form .extension .scalars
  | ilike : Form .extension (.pair .scalar .scalar)
  | conflictUpsert : Form .extension (.pair (.pair (.pair .table .row) .columns) .row)
  | foreign (node : Foreign) : Form .extension .unit
  | insert : Form .statement (.pair .table .row)
  | insertFromQuery : Form .statement (.pair (.pair .table .columns) .query)
  | update : Form .statement (.pair (.pair .table .row) .condition)
  | delete : Form .statement (.pair .table .condition)

/-- A constructor without an identity of its own: the leaves, what stands for another node, lists
and optional nodes. -/
inductive Frame : Category → Slot → Type where
  | column : Frame .scalar .column
  | argument : Frame .scalar .argument
  | table : Frame .source .table
  | scalarExtension : Frame .scalar (.tree .extension)
  | sourceExtension : Frame .source (.tree .extension)
  | queryStatement : Frame .statement .query
  | scalarStatement : Frame .statement .scalar
  | sourceStatement : Frame .statement .source
  | extensionStatement : Frame .statement (.tree .extension)
  | nil {c : Category} : Frame (.list c) .unit
  | cons {c : Category} : Frame (.list c) (.pair (.tree c) (.tree (.list c)))
  | absent {c : Category} : Frame (.option c) .unit
  | present {c : Category} : Frame (.option c) (.tree c)

def Form.build : {c : Category} → {s : Slot} → Form c s → NodeId → s.Part → Tree c
  | _, _, .declare name, id, expr => .declare id expr name
  | _, _, .binary op type, id, (left, right) => .binary id op left right type
  | _, _, .unary op type, id, operand => .unary id op operand type
  | _, _, .between negated, id, ((expr, lower), upper) => .between id expr lower upper negated
  | _, _, .inValues negated, id, (left, values) => .inValues id left values negated
  | _, _, .inQuery negated, id, (left, query) => .inQuery id left query negated
  | _, _, .existsQuery negated, id, query => .existsQuery id query negated
  | _, _, .aggregate function distinct type, id, operand =>
    .aggregate id function operand distinct type
  | _, _, .call name type, id, arguments => .call id name arguments type
  | _, _, .cast type, id, expr => .cast id expr type
  | _, _, .join kind, id, ((left, right), condition) => .join id kind left right condition
  | _, _, .subquery aliasName, id, query => .subquery id query aliasName
  | _, _, .select distinct page, id,
      (((((columns, source), condition), groupBy), having), orderBy) =>
    .select id columns source condition groupBy having distinct orderBy page
  | _, _, .union all page, id, ((left, right), orderBy) => .union id left right all orderBy page
  | _, _, .order descending, id, expr => .order id expr descending
  | _, _, .assign, id, (target, value) => .assign id target value
  | _, _, .duplicateKeyUpsert, id, ((into, row), updates) => .duplicateKeyUpsert id into row updates
  | _, _, .bulkInsert, id, (into, rows) => .bulkInsert id into rows
  | _, _, .naturalJoin, id, (left, right) => .naturalJoin id left right
  | _, _, .matchAgainst search modifier, id, columns => .matchAgainst id columns search modifier
  | _, _, .ilike, id, (left, right) => .ilike id left right
  | _, _, .conflictUpsert, id, (((into, row), conflict), updates) =>
    .conflictUpsert id into row conflict updates
  | _, _, .foreign node, id, () => .foreign id node
  | _, _, .insert, id, (into, row) => .insert id into row
  | _, _, .insertFromQuery, id, ((into, columns), query) => .insertFromQuery id into columns query
  | _, _, .update, id, ((into, assignments), condition) => .update id into assignments condition
  | _, _, .delete, id, (into, condition) => .delete id into condition

def Frame.build : {c : Category} → {s : Slot} → Frame c s → s.Part → Tree c
  | _, _, .column, node => .column node
  | _, _, .argument, node => .argument node
  | _, _, .table, node => .table node
  | _, _, .scalarExtension, node => .scalarExtension node
  | _, _, .sourceExtension, node => .sourceExtension node
  | _, _, .queryStatement, query => .queryStatement query
  | _, _, .scalarStatement, scalar => .scalarStatement scalar
  | _, _, .sourceStatement, source => .sourceStatement source
  | _, _, .extensionStatement, node => .extensionStatement node
  | _, _, .nil, () => .nil
  | _, _, .cons, (head, tail) => .cons head tail
  | _, _, .absent, () => .absent
  | _, _, .present, content => .present content

/-- Induction over trees and the parts of nodes. -/
@[elab_as_elim]
theorem Slot.induction {motive : (s : Slot) → s.Part → Prop}
    (unit : motive .unit ()) (table : ∀ node, motive .table node)
    (column : ∀ node, motive .column node) (argument : ∀ node, motive .argument node)
    (noColumns : motive .columns [])
    (moreColumns : ∀ node nodes, motive .columns nodes → motive .columns (node :: nodes))
    (pair : ∀ (a b : Slot) (first : a.Part) (second : b.Part),
      motive a first → motive b second → motive (.pair a b) (first, second))
    (frame : ∀ {c : Category} {s : Slot} (frame : Frame c s) (parts : s.Part),
      motive s parts → motive (.tree c) (frame.build parts))
    (node : ∀ {c : Category} {s : Slot} (form : Form c s) (id : NodeId) (parts : s.Part),
      motive s parts → motive (.tree c) (form.build id parts))
    (s : Slot) (part : s.Part) : motive s part := by
  have columns : ∀ nodes, motive .columns nodes := by
    intro nodes
    induction nodes with
    | nil => exact noColumns
    | cons node nodes ih => exact moreColumns node nodes ih
  have both : ∀ {a b : Slot} {first : a.Part} {second : b.Part},
      motive a first → motive b second → motive (.pair a b) (first, second) :=
    fun ha hb => pair _ _ _ _ ha hb
  have trees : ∀ {c : Category} (t : Tree c), motive (.tree c) t := by
    intro c t
    induction t with
    | column leaf => exact frame .column leaf (column leaf)
    | argument leaf => exact frame .argument leaf (argument leaf)
    | declare id _ name ih => exact node (.declare name) id _ ih
    | binary id op _ _ type ihLeft ihRight =>
      exact node (.binary op type) id (_, _) (both ihLeft ihRight)
    | unary id op _ type ih => exact node (.unary op type) id _ ih
    | between id _ _ _ negated ihExpr ihLower ihUpper =>
      exact node (.between negated) id ((_, _), _) (both (both ihExpr ihLower) ihUpper)
    | inValues id _ _ negated ihLeft ihValues =>
      exact node (.inValues negated) id (_, _) (both ihLeft ihValues)
    | inQuery id _ _ negated ihLeft ihQuery =>
      exact node (.inQuery negated) id (_, _) (both ihLeft ihQuery)
    | existsQuery id _ negated ih => exact node (.existsQuery negated) id _ ih
    | aggregate id function _ distinct type ih =>
      exact node (.aggregate function distinct type) id _ ih
    | call id name _ type ih => exact node (.call name type) id _ ih
    | cast id _ type ih => exact node (.cast type) id _ ih
    | scalarExtension _ ih => exact frame .scalarExtension _ ih
    | table leaf => exact frame .table leaf (table leaf)
    | join id kind _ _ _ ihLeft ihRight ihCondition =>
      exact node (.join kind) id ((_, _), _) (both (both ihLeft ihRight) ihCondition)
    | subquery id _ aliasName ih => exact node (.subquery aliasName) id _ ih
    | sourceExtension _ ih => exact frame .sourceExtension _ ih
    | select id _ _ _ _ _ distinct _ page ihColumns ihSource ihCondition ihGroup ihHaving ihOrder =>
      exact node (.select distinct page) id (((((_, _), _), _), _), _)
        (both (both (both (both (both ihColumns ihSource) ihCondition) ihGroup) ihHaving) ihOrder)
    | union id _ _ all _ page ihLeft ihRight ihOrder =>
      exact node (.union all page) id ((_, _), _) (both (both ihLeft ihRight) ihOrder)
    | order id _ descending ih => exact node (.order descending) id _ ih
    | assign id target _ ih => exact node .assign id (target, _) (both (column target) ih)
    | duplicateKeyUpsert id into _ _ ihRow ihUpdates =>
      exact node .duplicateKeyUpsert id ((into, _), _) (both (both (table into) ihRow) ihUpdates)
    | bulkInsert id into _ ih => exact node .bulkInsert id (into, _) (both (table into) ih)
    | naturalJoin id _ _ ihLeft ihRight =>
      exact node .naturalJoin id (_, _) (both ihLeft ihRight)
    | matchAgainst id _ search modifier ih => exact node (.matchAgainst search modifier) id _ ih
    | ilike id _ _ ihLeft ihRight => exact node .ilike id (_, _) (both ihLeft ihRight)
    | conflictUpsert id into _ conflict _ ihRow ihUpdates =>
      exact node .conflictUpsert id (((into, _), conflict), _)
        (both (both (both (table into) ihRow) (columns conflict)) ihUpdates)
    | foreign id other => exact node (.foreign other) id () unit
    | queryStatement _ ih => exact frame .queryStatement _ ih
    | insert id into _ ih => exact node .insert id (into, _) (both (table into) ih)
    | insertFromQuery id into names _ ih =>
      exact node .insertFromQuery id ((into, names), _)
        (both (both (table into) (columns names)) ih)
    | update id into _ _ ihRow ihCondition =>
      exact node .update id ((into, _), _) (both (both (table into) ihRow) ihCondition)
    | delete id into _ ih => exact node .delete id (into, _) (both (table into) ih)
    | scalarStatement _ ih => exact frame .scalarStatement _ ih
    | sourceStatement _ ih => exact frame .sourceStatement _ ih
    | extensionStatement _ ih => exact frame .extensionStatement _ ih
    | nil => exact frame .nil () unit
    | cons _ _ ihHead ihTail => exact frame .cons (_, _) (both ihHead ihTail)
    | absent => exact frame .absent () unit
    | present _ ih => exact frame .present _ ih
  induction s with
  | unit => exact unit
  | tree c => exact trees part
  | table => exact table part
  | column => exact column part
  | argument => exact argument part
  | columns => exact columns part
  | pair a b iha ihb => exact pair a b part.1 part.2 (iha part.1) (ihb part.2)

/-! ### Identity -/

def Slot.same : (s : Slot) → s.Part → s.Part → Bool
  | .unit, _, _ => true
  | .tree _, a, b => Tree.same a b
  | .table, a, b => Node.same a b
  | .column, a, b => Node.same a b
  | .argument, a, b => Node.same a b
  | .columns, a, b => Node.sameAll a b
  | .pair s t, (a, c), (b, d) => s.same a b && t.same c d

/-- For extension nodes the test on nodes is equality of identities. -/
theorem Tree.same_extension (a b : Extension) : a.same b = (a.id? == b.id?) := by
  cases a <;> rfl

/-- Nodes are the same if their identities are, whatever their parts. -/
@[simp]
theorem Form.same_build {c : Category} {s : Slot} (form : Form c s) (id id' : NodeId)
    (parts parts' : s.Part) :
    (form.build id parts).same (form.build id' parts') = (id == id') := by
  cases form <;> rfl

/-- Trees without an identity of their own are compared by their parts. -/
@[simp]
theorem Frame.same_build {c : Category} {s : Slot} (frame : Frame c s) (parts parts' : s.Part) :
    (frame.build parts).same (frame.build parts') = s.same parts parts' := by
  cases frame with
  | scalarExtension | sourceExtension => exact (Tree.same_extension parts parts').symm
  | _ => rfl

/-- What stands in a slot is the same as itself. -/
@[simp]
theorem Slot.same_self (s : Slot) (part : s.Part) : s.same part part = true := by
  induction s, part using Slot.induction with
  | unit | noColumns => rfl
  | table node | column node | argument node => exact beq_self_eq_true node.id
  | moreColumns node nodes ih =>
    have first : node.same node = true := beq_self_eq_true node.id
    exact Bool.and_eq_true_iff.mpr ⟨first, ih⟩
  | pair a b first second ihFirst ihSecond => exact Bool.and_eq_true_iff.mpr ⟨ihFirst, ihSecond⟩
  | frame frame parts ih => exact (frame.same_build parts parts).trans ih
  | node form id parts _ => exact (form.same_build id id parts parts).trans (beq_self_eq_true id)

@[simp]
theorem Tree.same_self {c : Category} (tree : Tree c) : tree.same tree = true :=
  Slot.same_self (.tree c) tree

/-! ### Collecting -/

def Slot.collect {α : Type} (own : Contribution α) : (s : Slot) → s.Part → List α
  | .unit, _ => []
  | .tree _, t => t.collect own
  | .table, node => own.table node
  | .column, node => own.column node
  | .argument, node => own.argument node
  | .columns, nodes => nodes.flatMap own.column
  | .pair s t, (first, second) => s.collect own first ++ t.collect own second

/-- A node contributes around its parts. -/
theorem Form.collect_build {α : Type} (own : Contribution α) {c : Category} {s : Slot}
    (form : Form c s) (id : NodeId) (parts : s.Part) :
    (form.build id parts).collect own =
      own.around (form.build id parts) (s.collect own parts) := by
  cases form <;> rfl

/-- Leaves, lists and optional nodes contribute nothing around their parts; what stands for another
node may. -/
theorem Frame.collect_build {α : Type} (own : Contribution α) {c : Category} {s : Slot}
    (frame : Frame c s) (parts : s.Part) :
    (frame.build parts).collect own = s.collect own parts ∨
      (frame.build parts).collect own =
        own.around (frame.build parts) (s.collect own parts) := by
  cases frame with
  | scalarExtension | sourceExtension | queryStatement | scalarStatement | sourceStatement
  | extensionStatement => exact .inr rfl
  | _ => exact .inl rfl

/-- What a node contributes ahead of its parts, and what its parts contribute, is collected. -/
theorem Form.mem_collect_build {α : Type} {own : Contribution α} {c : Category} {s : Slot}
    (form : Form c s) {id : NodeId} {parts : s.Part} {item : α}
    (member : item ∈ own.before (form.build id parts) ∨ item ∈ s.collect own parts) :
    item ∈ (form.build id parts).collect own := by
  rw [form.collect_build, Contribution.around]
  exact List.mem_append_left _ (List.mem_append.mpr member)

theorem Frame.mem_collect_build {α : Type} {own : Contribution α} {c : Category} {s : Slot}
    (frame : Frame c s) {parts : s.Part} {item : α} (member : item ∈ s.collect own parts) :
    item ∈ (frame.build parts).collect own := by
  rcases frame.collect_build own parts with collected | collected
  · rw [collected]
    exact member
  · rw [collected, Contribution.around]
    exact List.mem_append_left _ (List.mem_append_right _ member)

/-- Items can be expanded where they are contributed. -/
theorem Slot.flatMap_collect {α β : Type} (own : Contribution α) (expand : α → List β) (s : Slot)
    (part : s.Part) :
    (s.collect own part).flatMap expand = s.collect (own.flatMap expand) part := by
  induction s, part using Slot.induction with
  | unit | table | column | argument | noColumns => rfl
  | moreColumns node nodes ih =>
    exact List.flatMap_append.trans (congrArg (_ ++ ·) ih)
  | pair a b first second ihFirst ihSecond =>
    rw [collect, List.flatMap_append, ihFirst, ihSecond]
    rfl
  | frame frame parts ih =>
    cases frame with
    | scalarExtension | sourceExtension | queryStatement | scalarStatement | sourceStatement
    | extensionStatement => exact (own.flatMap_around expand _ _).trans (congrArg _ ih)
    | _ => exact ih
  | node form id parts ih =>
    rw [collect, collect, form.collect_build, form.collect_build, own.flatMap_around, ih]

/-- Expanding what was collected is collecting what is expanded. -/
theorem Tree.flatMap_collect {α β : Type} (own : Contribution α) (expand : α → List β)
    {c : Category} (tree : Tree c) :
    (tree.collect own).flatMap expand = tree.collect (own.flatMap expand) :=
  Slot.flatMap_collect own expand (.tree c) tree

/-- The nodes of a tree that are no leaves, each one ahead of those inside it. -/
def Tree.nodes {c : Category} (tree : Tree c) : List ((c : Category) × Tree c) :=
  tree.collect { before := fun node => [⟨_, node⟩] }

/-- What is collected ahead of the parts of nodes comes from some node. -/
theorem Tree.mem_collect_before {α : Type} {own : {c : Category} → Tree c → List α} {c : Category}
    {tree : Tree c} {item : α} :
    item ∈ tree.collect { before := own } ↔ ∃ node ∈ tree.nodes, item ∈ own node.2 := by
  have expanded : tree.nodes.flatMap (fun node => own node.2) = tree.collect { before := own } := by
    rw [nodes, flatMap_collect]
    congr 1
    simp only [Contribution.flatMap, List.flatMap_nil, List.flatMap_cons, List.append_nil]
  rw [← expanded, List.mem_flatMap]

/-- The name that a node spells as it is: that of a function, or of a type that is not one of the
standard ones and that a cast asks for. -/
def Tree.spelledName : {c : Category} → Tree c → List String
  | _, .call _ name _ _ => [name]
  | _, .cast _ _ (.custom name) => [name]
  | _, _ => []

def Tree.spelledNames {c : Category} (tree : Tree c) : List String :=
  tree.collect { before := Tree.spelledName }

def Tree.ownPage : {c : Category} → Tree c → List Page
  | .query, query => [query.page]
  | _, _ => []

/-- The page that stands on a constructor, if it is one of queries. -/
def Form.pages {c : Category} {s : Slot} : Form c s → List Page
  | .select _ page => [page]
  | .union _ page => [page]
  | _ => []

theorem Form.ownPage_build {c : Category} {s : Slot} (form : Form c s) (id : NodeId)
    (parts : s.Part) : (form.build id parts).ownPage = form.pages := by
  cases form <;> rfl

def Tree.pages {c : Category} (tree : Tree c) : List Page :=
  tree.collect { before := Tree.ownPage }

end SqlTree
