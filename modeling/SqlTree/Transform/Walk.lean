import SqlTree.Dialect.Flavor
import SqlTree.Transform.Transformer

/-!
# Transformations of trees

The traversal calls the hooks of a transformer from left to right and stops at the first failure. A
node is built anew, under a fresh identity, exactly when one of its parts is no longer the same;
otherwise the node itself is the result, so that unchanged parts of a tree are shared.
-/

namespace SqlTree

namespace Transformer

variable {σ : Type}

/-- Keeps a node whose parts are the same, and otherwise builds it anew. -/
def rebuild {c : Category} (unchanged : Bool) (node : Tree c) (build : NodeId → Tree c) :
    TransformM σ (Tree c) :=
  if unchanged then pure node else build <$> TransformM.fresh

/-- The hooks around a node that stands in a position of its own. -/
def around (r : Transformer σ) {c : Category} (node : Tree c) (walk : TransformM σ (Tree c)) :
    TransformM σ (Tree c) :=
  r.position node (r.node node walk)

def transform (r : Transformer σ) : {c : Category} → Tree c → TransformM σ (Tree c)
  | _, .column node =>
    r.position (.column node) do return .column (← r.column node)
  | _, .argument node =>
    r.position (.argument node) do return .argument (← r.argument node)
  | _, .declare id expr name =>
    r.around (.declare id expr name) do
      let expr' ← r.transform expr
      rebuild (expr'.same expr) (.declare id expr name) fun id => .declare id expr' name
  | _, .binary id op left right type =>
    r.around (.binary id op left right type) do
      let left' ← r.transform left
      let right' ← r.transform right
      rebuild (left'.same left && right'.same right) (.binary id op left right type)
        fun id => .binary id op left' right' type
  | _, .unary id op operand type =>
    r.around (.unary id op operand type) do
      let operand' ← r.transform operand
      rebuild (operand'.same operand) (.unary id op operand type)
        fun id => .unary id op operand' type
  | _, .between id expr lower upper negated =>
    r.around (.between id expr lower upper negated) do
      let expr' ← r.transform expr
      let lower' ← r.transform lower
      let upper' ← r.transform upper
      rebuild (expr'.same expr && lower'.same lower && upper'.same upper)
        (.between id expr lower upper negated) fun id => .between id expr' lower' upper' negated
  | _, .inValues id left values negated =>
    r.around (.inValues id left values negated) do
      let left' ← r.transform left
      let values' ← r.transform values
      rebuild (left'.same left && values'.same values) (.inValues id left values negated)
        fun id => .inValues id left' values' negated
  | _, .inQuery id left query negated =>
    r.around (.inQuery id left query negated) do
      let left' ← r.transform left
      let query' ← r.transform query
      rebuild (left'.same left && query'.same query) (.inQuery id left query negated)
        fun id => .inQuery id left' query' negated
  | _, .existsQuery id query negated =>
    r.around (.existsQuery id query negated) do
      let query' ← r.transform query
      rebuild (query'.same query) (.existsQuery id query negated)
        fun id => .existsQuery id query' negated
  | _, .aggregate id function operand distinct type =>
    r.around (.aggregate id function operand distinct type) do
      let operand' ← r.transform operand
      rebuild (operand'.same operand) (.aggregate id function operand distinct type)
        fun id => .aggregate id function operand' distinct type
  | _, .call id name arguments type =>
    r.around (.call id name arguments type) do
      let arguments' ← r.transform arguments
      rebuild (arguments'.same arguments) (.call id name arguments type)
        fun id => .call id name arguments' type
  | _, .cast id expr type =>
    r.around (.cast id expr type) do
      let expr' ← r.transform expr
      rebuild (expr'.same expr) (.cast id expr type) fun id => .cast id expr' type
  | _, .scalarExtension node =>
    r.position (.scalarExtension node) do return .scalarExtension (← r.transform node)
  | _, .table node =>
    r.position (.table node) do return .table (← r.table node)
  | _, .join id kind left right condition =>
    r.around (.join id kind left right condition) do
      let left' ← r.transform left
      let right' ← r.transform right
      let condition' ← r.transform condition
      rebuild (left'.same left && right'.same right && condition'.same condition)
        (.join id kind left right condition) fun id => .join id kind left' right' condition'
  | _, .subquery id query aliasName =>
    r.around (.subquery id query aliasName) do
      let query' ← r.transform query
      rebuild (query'.same query) (.subquery id query aliasName)
        fun id => .subquery id query' aliasName
  | _, .sourceExtension node =>
    r.position (.sourceExtension node) do return .sourceExtension (← r.transform node)
  | _, .select id columns source condition groupBy having distinct orderBy page =>
    r.around (.select id columns source condition groupBy having distinct orderBy page) do
      let columns' ← r.transform columns
      let source' ← r.transform source
      let condition' ← r.transform condition
      let groupBy' ← r.transform groupBy
      let having' ← r.transform having
      let orderBy' ← r.transform orderBy
      rebuild
        (columns'.same columns && source'.same source && condition'.same condition
          && groupBy'.same groupBy && having'.same having && orderBy'.same orderBy)
        (.select id columns source condition groupBy having distinct orderBy page)
        fun id => .select id columns' source' condition' groupBy' having' distinct orderBy' page
  | _, .union id left right all orderBy page =>
    r.around (.union id left right all orderBy page) do
      let left' ← r.transform left
      let right' ← r.transform right
      let orderBy' ← r.transform orderBy
      rebuild (left'.same left && right'.same right && orderBy'.same orderBy)
        (.union id left right all orderBy page)
        fun id => .union id left' right' all orderBy' page
  | _, .order id expr descending =>
    r.node (.order id expr descending) do
      let expr' ← r.transform expr
      rebuild (expr'.same expr) (.order id expr descending) fun id => .order id expr' descending
  | _, .assign id target value => do
    let target' ← r.column target
    let value' ← r.transform value
    rebuild (target'.same target && value'.same value) (.assign id target value)
      fun id => .assign id target' value'
  | _, .duplicateKeyUpsert id into row updates =>
    let node : Extension := .duplicateKeyUpsert id into row updates
    r.extension node (r.node node do
      let into' ← r.table into
      let row' ← r.transform row
      let updates' ← r.transform updates
      rebuild (into'.same into && row'.same row && updates'.same updates) node
        fun id => .duplicateKeyUpsert id into' row' updates')
  | _, .bulkInsert id into rows =>
    let node : Extension := .bulkInsert id into rows
    r.extension node (r.node node do
      let into' ← r.table into
      let rows' ← r.transform rows
      rebuild (into'.same into && rows'.same rows) node fun id => .bulkInsert id into' rows')
  | _, .naturalJoin id left right =>
    let node : Extension := .naturalJoin id left right
    r.extension node (r.node node do
      let left' ← r.transform left
      let right' ← r.transform right
      rebuild (left'.same left && right'.same right) node fun id => .naturalJoin id left' right')
  | _, .matchAgainst id columns search modifier =>
    let node : Extension := .matchAgainst id columns search modifier
    r.extension node (r.node node do
      let columns' ← r.transform columns
      rebuild (columns'.same columns) node fun id => .matchAgainst id columns' search modifier)
  | _, .ilike id left right =>
    let node : Extension := .ilike id left right
    r.extension node (r.node node do
      let left' ← r.transform left
      let right' ← r.transform right
      rebuild (left'.same left && right'.same right) node fun id => .ilike id left' right')
  | _, .conflictUpsert id into row conflict updates =>
    let node : Extension := .conflictUpsert id into row conflict updates
    r.extension node (r.node node do
      let into' ← r.table into
      let row' ← r.transform row
      let conflict' ← conflict.mapM r.column
      let updates' ← r.transform updates
      rebuild
        (into'.same into && row'.same row && Node.sameAll conflict' conflict
          && updates'.same updates)
        node fun id => .conflictUpsert id into' row' conflict' updates')
  | _, .foreign id node =>
    r.extension (.foreign id node) (throw (.unsupportedNode node.kind))
  | _, .queryStatement query =>
    r.position (.queryStatement query) do return .queryStatement (← r.transform query)
  | _, .insert id into row =>
    r.around (.insert id into row) do
      let into' ← r.table into
      let row' ← r.transform row
      rebuild (into'.same into && row'.same row) (.insert id into row)
        fun id => .insert id into' row'
  | _, .insertFromQuery id into columns query =>
    r.around (.insertFromQuery id into columns query) do
      let into' ← r.table into
      let columns' ← columns.mapM r.column
      let query' ← r.transform query
      rebuild (into'.same into && Node.sameAll columns' columns && query'.same query)
        (.insertFromQuery id into columns query)
        fun id => .insertFromQuery id into' columns' query'
  | _, .update id into assignments condition =>
    r.around (.update id into assignments condition) do
      let into' ← r.table into
      let assignments' ← r.transform assignments
      let condition' ← r.transform condition
      rebuild
        (into'.same into && assignments'.same assignments && condition'.same condition)
        (.update id into assignments condition)
        fun id => .update id into' assignments' condition'
  | _, .delete id into condition =>
    r.around (.delete id into condition) do
      let into' ← r.table into
      let condition' ← r.transform condition
      rebuild (into'.same into && condition'.same condition) (.delete id into condition)
        fun id => .delete id into' condition'
  | _, .scalarStatement scalar =>
    r.position (.scalarStatement scalar) do return .scalarStatement (← r.transform scalar)
  | _, .sourceStatement source =>
    r.position (.sourceStatement source) do return .sourceStatement (← r.transform source)
  | _, .extensionStatement node =>
    r.position (.extensionStatement node) do return .extensionStatement (← r.transform node)
  | _, .nil => return .nil
  | _, .cons head tail => do
    let head' ← r.member head (r.transform head)
    let tail' ← r.transform tail
    return match head' with
      | none => tail'
      | some head' => .cons head' tail'
  | _, .absent => return .absent
  | _, .present content => return .present (← r.transform content)

/-- Transforms a tree, with identities from `next` on for new nodes. -/
def run (r : Transformer σ) {c : Category} (tree : Tree c) (next : NodeId) (memory : σ) :
    Except Error (Tree c) × TransformState σ :=
  ((r.transform tree).run).run { next, memory }

end Transformer

/-- Enters the extension nodes that the traversal of a flavor knows, and refuses the others. Its
dialect has a list of its own. -/
def Flavor.route {σ : Type} (flavor : Flavor) (node : Extension) (walk : TransformM σ Extension) :
    TransformM σ Extension :=
  match flavor, node with
  | .mysql, .duplicateKeyUpsert .. => walk
  | .mysql, .bulkInsert .. => walk
  | .mysql, .naturalJoin .. => walk
  | .mysql, .matchAgainst .. => walk
  | .postgresql, .ilike .. => walk
  | .postgresql, .conflictUpsert .. => walk
  | _, _ => throw (.unsupportedNode node.kind)

end SqlTree
