import SqlTree.Tree.Kind

/-!
# Collecting from a tree

Many facts about a tree are lists gathered from left to right: the parameters it binds, the names of
the functions it calls, its leaves, its identities. They differ only in what each node contributes.
`Tree.collect` is the one recursion behind them, and visits the parts of a node in the order in
which the node has them.
-/

namespace SqlTree

/-- What the nodes of a tree contribute to a list. -/
structure Contribution (α : Type) where
  table : Node Table → List α := fun _ => []
  column : Node Column → List α := fun _ => []
  argument : Node Argument → List α := fun _ => []
  /-- What a node that is no leaf contributes ahead of its parts. -/
  before : {c : Category} → Tree c → List α := fun _ => []
  /-- What a node that is no leaf contributes behind its parts. -/
  after : {c : Category} → Tree c → List α := fun _ => []

def Contribution.around {α : Type} (own : Contribution α) {c : Category} (node : Tree c)
    (parts : List α) : List α :=
  own.before node ++ parts ++ own.after node

namespace Tree

/-- Everything that the nodes of a tree contribute, from left to right. Lists and optional nodes
contribute nothing of their own. -/
def collect {α : Type} (own : Contribution α) : {c : Category} → Tree c → List α
  | _, .column node => own.column node
  | _, .argument node => own.argument node
  | _, .declare id expr name => own.around (.declare id expr name) (expr.collect own)
  | _, .binary id op left right type =>
    own.around (.binary id op left right type) (left.collect own ++ right.collect own)
  | _, .unary id op operand type => own.around (.unary id op operand type) (operand.collect own)
  | _, .between id expr lower upper negated =>
    own.around (.between id expr lower upper negated)
      (expr.collect own ++ lower.collect own ++ upper.collect own)
  | _, .inValues id left values negated =>
    own.around (.inValues id left values negated) (left.collect own ++ values.collect own)
  | _, .inQuery id left query negated =>
    own.around (.inQuery id left query negated) (left.collect own ++ query.collect own)
  | _, .existsQuery id query negated =>
    own.around (.existsQuery id query negated) (query.collect own)
  | _, .aggregate id function operand distinct type =>
    own.around (.aggregate id function operand distinct type) (operand.collect own)
  | _, .call id name arguments type =>
    own.around (.call id name arguments type) (arguments.collect own)
  | _, .cast id expr type => own.around (.cast id expr type) (expr.collect own)
  | _, .scalarExtension node => own.around (.scalarExtension node) (node.collect own)
  | _, .table node => own.table node
  | _, .join id kind left right condition =>
    own.around (.join id kind left right condition)
      (left.collect own ++ right.collect own ++ condition.collect own)
  | _, .subquery id query aliasName =>
    own.around (.subquery id query aliasName) (query.collect own)
  | _, .sourceExtension node => own.around (.sourceExtension node) (node.collect own)
  | _, .select id columns source condition groupBy having distinct orderBy page =>
    own.around (.select id columns source condition groupBy having distinct orderBy page)
      (columns.collect own ++ source.collect own ++ condition.collect own ++ groupBy.collect own
        ++ having.collect own ++ orderBy.collect own)
  | _, .union id left right all orderBy page =>
    own.around (.union id left right all orderBy page)
      (left.collect own ++ right.collect own ++ orderBy.collect own)
  | _, .order id expr descending => own.around (.order id expr descending) (expr.collect own)
  | _, .assign id target value =>
    own.around (.assign id target value) (own.column target ++ value.collect own)
  | _, .duplicateKeyUpsert id into row updates =>
    own.around (.duplicateKeyUpsert id into row updates)
      (own.table into ++ row.collect own ++ updates.collect own)
  | _, .bulkInsert id into rows =>
    own.around (.bulkInsert id into rows) (own.table into ++ rows.collect own)
  | _, .naturalJoin id left right =>
    own.around (.naturalJoin id left right) (left.collect own ++ right.collect own)
  | _, .matchAgainst id columns search modifier =>
    own.around (.matchAgainst id columns search modifier) (columns.collect own)
  | _, .ilike id left right =>
    own.around (.ilike id left right) (left.collect own ++ right.collect own)
  | _, .conflictUpsert id into row conflict updates =>
    own.around (.conflictUpsert id into row conflict updates)
      (own.table into ++ row.collect own ++ conflict.flatMap own.column ++ updates.collect own)
  | _, .foreign id node => own.around (.foreign id node) []
  | _, .queryStatement query => own.around (.queryStatement query) (query.collect own)
  | _, .insert id into row => own.around (.insert id into row) (own.table into ++ row.collect own)
  | _, .insertFromQuery id into columns query =>
    own.around (.insertFromQuery id into columns query)
      (own.table into ++ columns.flatMap own.column ++ query.collect own)
  | _, .update id into assignments condition =>
    own.around (.update id into assignments condition)
      (own.table into ++ assignments.collect own ++ condition.collect own)
  | _, .delete id into condition =>
    own.around (.delete id into condition) (own.table into ++ condition.collect own)
  | _, .scalarStatement scalar => own.around (.scalarStatement scalar) (scalar.collect own)
  | _, .sourceStatement source => own.around (.sourceStatement source) (source.collect own)
  | _, .extensionStatement node => own.around (.extensionStatement node) (node.collect own)
  | _, .nil => []
  | _, .cons head tail => head.collect own ++ tail.collect own
  | _, .absent => []
  | _, .present content => content.collect own

end Tree

/-- A contribution whose items are each replaced by a list. -/
def Contribution.flatMap {α β : Type} (own : Contribution α) (expand : α → List β) :
    Contribution β where
  table node := (own.table node).flatMap expand
  column node := (own.column node).flatMap expand
  argument node := (own.argument node).flatMap expand
  before node := (own.before node).flatMap expand
  after node := (own.after node).flatMap expand

theorem Contribution.flatMap_around {α β : Type} (own : Contribution α) (expand : α → List β)
    {c : Category} (node : Tree c) (parts : List α) :
    (own.around node parts).flatMap expand =
      (own.flatMap expand).around node (parts.flatMap expand) := by
  simp only [around, List.flatMap_append, flatMap]

end SqlTree
