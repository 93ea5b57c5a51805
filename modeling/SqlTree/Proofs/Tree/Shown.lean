import SqlTree.Tree.Kind

/-!
# What the text of a tree can show

The text of a tree never shows the identities of its nodes, the types they declare or the values
that are bound; of the type a cast asks for it shows the name, and of a table with one qualifier it
does not show whether that is a catalog or a schema. `Tree.shown` forgets exactly this: two trees
are shown alike if they differ in nothing else.
-/

namespace SqlTree

/-- Other labels for the nodes of a tree, whose shape stays as it is. -/
structure Relabeling where
  id : NodeId → NodeId
  table : Table → Table
  column : Column → Column
  argument : Argument → Argument
  /-- What becomes of the type that an operator, an aggregate or a call declares. -/
  type : SqlType → SqlType
  /-- What becomes of the type that a cast asks for. -/
  target : SqlType → SqlType

def Relabeling.node {α : Type} (labels : Relabeling) (change : α → α) (node : Node α) : Node α :=
  ⟨labels.id node.id, change node.value⟩

def Tree.relabel (labels : Relabeling) : {c : Category} → Tree c → Tree c
  | _, .column node => .column (labels.node labels.column node)
  | _, .argument node => .argument (labels.node labels.argument node)
  | _, .declare id expr name => .declare (labels.id id) (expr.relabel labels) name
  | _, .binary id op left right type =>
    .binary (labels.id id) op (left.relabel labels) (right.relabel labels) (labels.type type)
  | _, .unary id op operand type =>
    .unary (labels.id id) op (operand.relabel labels) (labels.type type)
  | _, .between id expr lower upper negated =>
    .between (labels.id id) (expr.relabel labels) (lower.relabel labels) (upper.relabel labels)
      negated
  | _, .inValues id left values negated =>
    .inValues (labels.id id) (left.relabel labels) (values.relabel labels) negated
  | _, .inQuery id left query negated =>
    .inQuery (labels.id id) (left.relabel labels) (query.relabel labels) negated
  | _, .existsQuery id query negated =>
    .existsQuery (labels.id id) (query.relabel labels) negated
  | _, .aggregate id function operand distinct type =>
    .aggregate (labels.id id) function (operand.relabel labels) distinct (labels.type type)
  | _, .call id name arguments type =>
    .call (labels.id id) name (arguments.relabel labels) (labels.type type)
  | _, .cast id expr type => .cast (labels.id id) (expr.relabel labels) (labels.target type)
  | _, .scalarExtension node => .scalarExtension (node.relabel labels)
  | _, .table node => .table (labels.node labels.table node)
  | _, .join id kind left right condition =>
    .join (labels.id id) kind (left.relabel labels) (right.relabel labels)
      (condition.relabel labels)
  | _, .subquery id query aliasName =>
    .subquery (labels.id id) (query.relabel labels) aliasName
  | _, .sourceExtension node => .sourceExtension (node.relabel labels)
  | _, .select id columns source condition groupBy having distinct orderBy page =>
    .select (labels.id id) (columns.relabel labels) (source.relabel labels)
      (condition.relabel labels) (groupBy.relabel labels) (having.relabel labels) distinct
      (orderBy.relabel labels) page
  | _, .union id left right all orderBy page =>
    .union (labels.id id) (left.relabel labels) (right.relabel labels) all
      (orderBy.relabel labels) page
  | _, .order id expr descending => .order (labels.id id) (expr.relabel labels) descending
  | _, .assign id target value =>
    .assign (labels.id id) (labels.node labels.column target) (value.relabel labels)
  | _, .duplicateKeyUpsert id into row updates =>
    .duplicateKeyUpsert (labels.id id) (labels.node labels.table into) (row.relabel labels)
      (updates.relabel labels)
  | _, .bulkInsert id into rows =>
    .bulkInsert (labels.id id) (labels.node labels.table into) (rows.relabel labels)
  | _, .naturalJoin id left right =>
    .naturalJoin (labels.id id) (left.relabel labels) (right.relabel labels)
  | _, .matchAgainst id columns search modifier =>
    .matchAgainst (labels.id id) (columns.relabel labels) search modifier
  | _, .ilike id left right => .ilike (labels.id id) (left.relabel labels) (right.relabel labels)
  | _, .conflictUpsert id into row conflict updates =>
    .conflictUpsert (labels.id id) (labels.node labels.table into) (row.relabel labels)
      (conflict.map (labels.node labels.column)) (updates.relabel labels)
  | _, .foreign id node => .foreign (labels.id id) node
  | _, .queryStatement query => .queryStatement (query.relabel labels)
  | _, .insert id into row =>
    .insert (labels.id id) (labels.node labels.table into) (row.relabel labels)
  | _, .insertFromQuery id into columns query =>
    .insertFromQuery (labels.id id) (labels.node labels.table into)
      (columns.map (labels.node labels.column)) (query.relabel labels)
  | _, .update id into assignments condition =>
    .update (labels.id id) (labels.node labels.table into) (assignments.relabel labels)
      (condition.relabel labels)
  | _, .delete id into condition =>
    .delete (labels.id id) (labels.node labels.table into) (condition.relabel labels)
  | _, .scalarStatement scalar => .scalarStatement (scalar.relabel labels)
  | _, .sourceStatement source => .sourceStatement (source.relabel labels)
  | _, .extensionStatement node => .extensionStatement (node.relabel labels)
  | _, .nil => .nil
  | _, .cons head tail => .cons (head.relabel labels) (tail.relabel labels)
  | _, .absent => .absent
  | _, .present content => .present (content.relabel labels)

/-- A table as its text shows it: a lone qualifier counts as the schema. -/
def Table.shown (t : Table) : Table :=
  match t.catalog, t.schema with
  | some catalog, none => { t with catalog := none, schema := some catalog }
  | _, _ => t

/-- A column as its text shows it: without its type. -/
def Column.shown (c : Column) : Column :=
  { c with type := .boolean }

/-- What a placeholder shows of the argument that is bound to it: nothing. -/
def Argument.shown : Argument :=
  { value := .null, type := .boolean }

def Relabeling.shown : Relabeling where
  id _ := 0
  table := Table.shown
  column := Column.shown
  argument _ := Argument.shown
  type _ := .boolean
  target type := .custom type.name

/-- What the text of a tree can show of it. -/
def Tree.shown {c : Category} (tree : Tree c) : Tree c :=
  tree.relabel .shown

end SqlTree
