import SqlTree.Proofs.Tree.Form

/-!
# Mapping the leaves of a tree

The plain structural map: it applies one function to the content of every table, one to every column
and one to every argument, another one to all identities, and builds every node anew from the
results. Operators, types, names, flags, pages and the shape of the tree stay as they are.
-/

namespace SqlTree

structure LeafMap where
  table : Table → Table := id
  column : Column → Column := id
  argument : Argument → Argument := id

def Node.map {α : Type} (renumber : NodeId → NodeId) (f : α → α) (node : Node α) : Node α :=
  ⟨renumber node.id, f node.value⟩

namespace Tree

/-- Maps the leaves of a tree, and renumbers its nodes. -/
def map (renumber : NodeId → NodeId) (f : LeafMap) : {c : Category} → Tree c → Tree c
  | _, .column node => .column (node.map renumber f.column)
  | _, .argument node => .argument (node.map renumber f.argument)
  | _, .declare id expr name => .declare (renumber id) (expr.map renumber f) name
  | _, .binary id op left right type =>
    .binary (renumber id) op (left.map renumber f) (right.map renumber f) type
  | _, .unary id op operand type => .unary (renumber id) op (operand.map renumber f) type
  | _, .between id expr lower upper negated =>
    .between (renumber id) (expr.map renumber f) (lower.map renumber f) (upper.map renumber f)
      negated
  | _, .inValues id left values negated =>
    .inValues (renumber id) (left.map renumber f) (values.map renumber f) negated
  | _, .inQuery id left query negated =>
    .inQuery (renumber id) (left.map renumber f) (query.map renumber f) negated
  | _, .existsQuery id query negated => .existsQuery (renumber id) (query.map renumber f) negated
  | _, .aggregate id function operand distinct type =>
    .aggregate (renumber id) function (operand.map renumber f) distinct type
  | _, .call id name arguments type => .call (renumber id) name (arguments.map renumber f) type
  | _, .cast id expr type => .cast (renumber id) (expr.map renumber f) type
  | _, .scalarExtension node => .scalarExtension (node.map renumber f)
  | _, .table node => .table (node.map renumber f.table)
  | _, .join id kind left right condition =>
    .join (renumber id) kind (left.map renumber f) (right.map renumber f)
      (condition.map renumber f)
  | _, .subquery id query aliasName => .subquery (renumber id) (query.map renumber f) aliasName
  | _, .sourceExtension node => .sourceExtension (node.map renumber f)
  | _, .select id columns source condition groupBy having distinct orderBy page =>
    .select (renumber id) (columns.map renumber f) (source.map renumber f)
      (condition.map renumber f) (groupBy.map renumber f) (having.map renumber f) distinct
      (orderBy.map renumber f) page
  | _, .union id left right all orderBy page =>
    .union (renumber id) (left.map renumber f) (right.map renumber f) all (orderBy.map renumber f)
      page
  | _, .order id expr descending => .order (renumber id) (expr.map renumber f) descending
  | _, .assign id target value =>
    .assign (renumber id) (target.map renumber f.column) (value.map renumber f)
  | _, .duplicateKeyUpsert id into row updates =>
    .duplicateKeyUpsert (renumber id) (into.map renumber f.table) (row.map renumber f)
      (updates.map renumber f)
  | _, .bulkInsert id into rows =>
    .bulkInsert (renumber id) (into.map renumber f.table) (rows.map renumber f)
  | _, .naturalJoin id left right =>
    .naturalJoin (renumber id) (left.map renumber f) (right.map renumber f)
  | _, .matchAgainst id columns search modifier =>
    .matchAgainst (renumber id) (columns.map renumber f) search modifier
  | _, .ilike id left right => .ilike (renumber id) (left.map renumber f) (right.map renumber f)
  | _, .conflictUpsert id into row conflict updates =>
    .conflictUpsert (renumber id) (into.map renumber f.table) (row.map renumber f)
      (conflict.map (·.map renumber f.column)) (updates.map renumber f)
  | _, .foreign id node => .foreign (renumber id) node
  | _, .queryStatement query => .queryStatement (query.map renumber f)
  | _, .insert id into row =>
    .insert (renumber id) (into.map renumber f.table) (row.map renumber f)
  | _, .insertFromQuery id into columns query =>
    .insertFromQuery (renumber id) (into.map renumber f.table)
      (columns.map (·.map renumber f.column)) (query.map renumber f)
  | _, .update id into assignments condition =>
    .update (renumber id) (into.map renumber f.table) (assignments.map renumber f)
      (condition.map renumber f)
  | _, .delete id into condition =>
    .delete (renumber id) (into.map renumber f.table) (condition.map renumber f)
  | _, .scalarStatement scalar => .scalarStatement (scalar.map renumber f)
  | _, .sourceStatement source => .sourceStatement (source.map renumber f)
  | _, .extensionStatement node => .extensionStatement (node.map renumber f)
  | _, .nil => .nil
  | _, .cons head tail => .cons (head.map renumber f) (tail.map renumber f)
  | _, .absent => .absent
  | _, .present content => .present (content.map renumber f)

def mapLeaves (f : LeafMap) {c : Category} (tree : Tree c) : Tree c :=
  tree.map id f

/-- The content of a tree: what is left when all identities are forgotten. -/
def erase {c : Category} (tree : Tree c) : Tree c :=
  tree.map (fun _ => 0) {}

end Tree

namespace Slot

def map (renumber : NodeId → NodeId) (f : LeafMap) : (s : Slot) → s.Part → s.Part
  | .unit, _ => ()
  | .tree _, t => t.map renumber f
  | .table, node => node.map renumber f.table
  | .column, node => node.map renumber f.column
  | .argument, node => node.map renumber f.argument
  | .columns, nodes => nodes.map (Node.map renumber f.column)
  | .pair s t, (first, second) => (s.map renumber f first, t.map renumber f second)

end Slot

section Laws

variable (renumber : NodeId → NodeId) (f : LeafMap)

theorem Form.map_build {c : Category} {s : Slot} (form : Form c s) (id : NodeId)
    (parts : s.Part) :
    (form.build id parts).map renumber f = form.build (renumber id) (s.map renumber f parts) := by
  cases form <;> rfl

theorem Frame.map_build {c : Category} {s : Slot} (frame : Frame c s) (parts : s.Part) :
    (frame.build parts).map renumber f = frame.build (s.map renumber f parts) := by
  cases frame <;> rfl

/-- Forgetting the identities after mapping the leaves is one map. -/
theorem Slot.erase_mapLeaves (s : Slot) (parts : s.Part) :
    s.map (fun _ => 0) {} (s.map id f parts) = s.map (fun _ => 0) f parts := by
  induction s, parts using Slot.induction with
  | unit | noColumns | table | column | argument => rfl
  | moreColumns node nodes ih => exact congrArg _ ih
  | pair a b first second ihFirst ihSecond => exact Prod.ext ihFirst ihSecond
  | frame frame parts ih =>
    simp only [Slot.map, Frame.map_build, ih]
  | node form id parts ih =>
    simp only [Slot.map, Form.map_build, ih]

/-- Forgetting identities does not interfere with a map of the leaves. -/
theorem Tree.erase_mapLeaves {c : Category} (tree : Tree c) :
    (tree.mapLeaves f).erase = tree.map (fun _ => 0) f :=
  Slot.erase_mapLeaves f (.tree c) tree

end Laws

end SqlTree
