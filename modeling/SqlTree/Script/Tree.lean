import SqlTree.Script.Basic
import SqlTree.Tree.Build
import SqlTree.Tree.Validation

/-!
# The scripts of trees

How each node is written, in terms of the scripts of its children.
-/

namespace SqlTree

/-- What writing makes of a tree: a script, or the scripts of the members of a list or an optional
node. An assignment keeps its column apart from the script of its value. -/
abbrev Written : Category → Type
  | .assignment => Setting
  | .list c => List (Written c)
  | .option c => Option (Written c)
  | _ => Script

open Script in
/-- The script of a tree. An extension node has its usual form as script; where it stands for a
scalar, a source or a statement, that form is offered to the dialect. -/
def Tree.script : {c : Category} → Tree c → Written c
  | _, .column node => Script.column node.value
  | _, .argument node => [.placeholder node.value]
  | _, .declare _ expr name =>
    expr.script ++ optional (fun name => keyword "AS" ++ identifier name) name
  | _, .binary _ op left right _ =>
    operand left left.script ++ keyword op.symbol ++ operand right right.script
  | _, .unary _ op inner _ =>
    if op.followsOperand then operand inner inner.script ++ keyword op.symbol
    else keyword op.symbol ++ operand inner inner.script
  | _, .between _ expr lower upper negated =>
    operand expr expr.script ++ keywordIf negated "NOT" ++ keyword "BETWEEN"
      ++ operand lower lower.script ++ keyword "AND" ++ operand upper upper.script
  | _, .inValues _ left values negated =>
    operand left left.script ++ keywordIf negated "NOT" ++ keyword "IN" ++ tuple values.script
  | _, .inQuery _ left query negated =>
    operand left left.script ++ keywordIf negated "NOT" ++ keyword "IN" ++ nested query.script
  | _, .existsQuery _ query negated =>
    keywordIf negated "NOT" ++ keyword "EXISTS" ++ nested query.script
  | _, .aggregate _ function inner distinct _ =>
    .text function.symbol :: group (keywordIf distinct "DISTINCT" ++ aggregated inner.script)
  | _, .call _ name arguments _ => .text name :: tuple arguments.script
  | _, .cast _ expr type =>
    .text "CAST(" :: expr.script ++ keyword "AS" ++ [.text type.name, .text ") "]
  | _, .scalarExtension node => [.extension node node.script]
  | _, .table node => Script.table node.value
  | _, .join _ kind left right condition =>
    left.script ++ clause kind.keyword right.script
      ++ optional (fun test => keyword "ON" ++ test) condition.script
  | _, .subquery _ query aliasName => nested query.script ++ optional identifier aliasName
  | _, .sourceExtension node => [.extension node node.script]
  | _, .select id columns source condition groupBy having distinct orderBy page =>
    keyword "SELECT" ++ keywordIf distinct "DISTINCT" ++ selection columns.script
      ++ clause "FROM" source.script
      ++ optionalClause "WHERE" condition.script
      ++ listClause "GROUP BY" groupBy.script
      ++ optionalClause "HAVING" having.script
      ++ listClause "ORDER BY" orderBy.script
      ++ pageClause (.select id columns source condition groupBy having distinct orderBy page)
  | _, .union id left right all orderBy page =>
    nested left.script ++ clause (if all then "UNION ALL" else "UNION") [.newLine .same]
      ++ nested right.script
      ++ listClause "ORDER BY" orderBy.script
      ++ pageClause (.union id left right all orderBy page)
  | _, .order _ expr descending => expr.script ++ keywordIf descending "DESC"
  | _, .assign _ target value => { column := target.value, value := value.script }
  | _, .duplicateKeyUpsert _ into row updates =>
    insertRow into.value row.script ++ duplicateKeyClause updates.script
  | _, .bulkInsert _ into rows =>
    checked (validateBulkInsert into.value rows) (.rejectedBulkInsert into.value.name)
      (insertRows into.value rows.script)
  | _, .naturalJoin _ left right => left.script ++ clause "NATURAL JOIN" right.script
  | _, .matchAgainst _ columns search modifier =>
    .text "MATCH " :: tuple columns.script ++ keyword "AGAINST"
      ++ group (.placeholder (searchArgument search)
        :: optional (fun modifier => keyword modifier.keyword) modifier)
  | _, .ilike _ left right =>
    operand left left.script ++ keyword "ILIKE" ++ operand right right.script
  | _, .conflictUpsert _ into row conflict updates =>
    checked (validateConflictTarget into.value conflict updates) (.rejectedUpsert into.value.name)
      (insertRow into.value row.script
        ++ conflictClause (conflict.map Node.value) updates.script)
  | _, .foreign _ node => [.refuse (.unsupportedNode node.kind)]
  | _, .queryStatement query => query.script
  | _, .insert _ into row => insertRow into.value row.script
  | _, .insertFromQuery _ into columns query =>
    keyword "INSERT INTO" ++ tableName into.value ++ columnNames (columns.map Node.value)
      ++ .newLine .same :: query.script
  | _, .update _ into assignments condition =>
    keyword "UPDATE" ++ tableName into.value ++ keyword "SET" ++ settings assignments.script
      ++ optionalClause "WHERE" condition.script
  | _, .delete _ into condition =>
    keyword "DELETE FROM" ++ tableName into.value ++ optionalClause "WHERE" condition.script
  | _, .scalarStatement scalar => scalar.script
  | _, .sourceStatement source => source.script
  | _, .extensionStatement node => [.extension node node.script]
  | _, .nil => []
  | _, .cons head tail => head.script :: tail.script
  | _, .absent => none
  | _, .present content => some content.script

end SqlTree
