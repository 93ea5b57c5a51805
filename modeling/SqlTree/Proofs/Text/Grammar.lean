import SqlTree.Dialect.Flavor

/-!
# The grammar of the text

What the text of a tree is, said without a formatter: a pure recursion that has no state and never
takes anything back. The words of a node are joined by one blank, the items of a list by a comma and
a blank, and what stands in brackets touches them. Between the clauses of a query, and inside the
brackets around one, stands the white space of a layout.
-/

namespace SqlTree

/-- The white space that depends on how a text is laid out. -/
structure Layout where
  /-- What stands between two clauses of a query at some depth. -/
  gap : Nat → List Char
  /-- What stands next to the brackets around a query, when the line it starts has some depth. -/
  edge : Nat → List Char

def Layout.compact : Layout where
  gap _ := [' ']
  edge _ := []

/-- Clauses on lines of their own, each behind as many blanks as its depth asks for. -/
def Layout.lines (width : Nat → Nat) : Layout where
  gap depth := '\n' :: List.replicate (width depth) ' '
  edge depth := '\n' :: List.replicate (width depth) ' '

def FormatOptions.layout (options : FormatOptions) : Layout :=
  if options.beautify then .lines options.indentWidth else .compact

namespace Grammar

/-! ## Words, lists and brackets -/

/-- Joined texts are the first one, and each other one behind the separator. -/
theorem intercalate_cons_eq {α : Type} (separator first : List α) (rest : List (List α)) :
    separator.intercalate (first :: rest) = first ++ rest.flatMap (separator ++ ·) := by
  induction rest generalizing first with
  | nil => rw [List.intercalate_singleton, List.flatMap_nil, List.append_nil]
  | cons next rest ih =>
    rw [List.intercalate_cons_cons, ih, List.flatMap_cons, List.append_assoc, List.append_assoc]

theorem flatMap_eq_intercalate {α : Type} (separator : List α) {texts : List (List α)}
    (nonempty : texts ≠ []) :
    texts.flatMap (separator ++ ·) = separator ++ separator.intercalate texts := by
  obtain ⟨first, rest, rfl⟩ := List.exists_cons_of_ne_nil nonempty
  rw [intercalate_cons_eq, List.flatMap_cons, List.append_assoc]

/-- The first of two lists of texts must not be empty, or there would be a separator too many. -/
theorem intercalate_append {α : Type} (separator : List α) {texts : List (List α)}
    (nonempty : texts ≠ []) (more : List (List α)) :
    separator.intercalate (texts ++ more) =
      separator.intercalate texts ++ more.flatMap (separator ++ ·) := by
  obtain ⟨first, rest, rfl⟩ := List.exists_cons_of_ne_nil nonempty
  rw [List.cons_append, intercalate_cons_eq, intercalate_cons_eq, List.flatMap_append,
    List.append_assoc]

/-- Words with one blank between them. -/
def phrase (words : List (List Char)) : List Char :=
  [' '].intercalate words

/-- Items with a comma and a blank between them. -/
def listed (items : List (List Char)) : List Char :=
  [',', ' '].intercalate items

def bracketed (content : List Char) : List Char :=
  '(' :: content ++ [')']

def wordIf (condition : Bool) (word : String) : List (List Char) :=
  if condition then [word.toList] else []

/-- A list that is one word, or none if it has no items. -/
def listIfAny (items : List (List Char)) : List (List Char) :=
  if items.isEmpty then [] else [listed items]

/-- A scalar as an operand, in brackets if it asks for them. -/
def operand (node : Scalar) (text : List Char) : List Char :=
  if node.needsBrackets then bracketed text else text

/-! ## Names -/

section Names

variable (flavor : Flavor)

def quoted (name : String) : List Char :=
  Quoted.enclose flavor.quote name.toList

/-- A quoted identifier and a dot, if there is a name. -/
def qualifier (name : Option String) : List Char :=
  name.elim [] fun name => quoted flavor name ++ ['.']

def column (c : Column) : List Char :=
  qualifier flavor c.table ++ quoted flavor c.name

def tableName (t : Table) : List Char :=
  qualifier flavor t.catalog ++ qualifier flavor t.schema ++ quoted flavor t.name

def columnNames (columns : List Column) : List Char :=
  bracketed (listed (columns.map fun c => quoted flavor c.name))

end Names

/-! ## Clauses -/

/-- Clauses with a gap between them. -/
def stanza (layout : Layout) (depth : Nat) (clauses : List (List Char)) : List Char :=
  (layout.gap depth).intercalate clauses

/-- A query in brackets; its own lines are one level deeper. -/
def nested (layout : Layout) (depth : Nat) (query : List Char) : List Char :=
  '(' :: layout.edge (depth + 1) ++ query ++ layout.edge depth ++ [')']

def optionalClause (head : String) (content : Option (List Char)) : List (List Char) :=
  content.toList.map fun text => phrase [head.toList, text]

/-- A clause over a list, left out when the list is empty. -/
def listClause (head : String) (entries : List (List Char)) : List (List Char) :=
  if entries.isEmpty then [] else [phrase [head.toList, listed entries]]

/-- The columns of a select; an empty list means all of them. -/
def selection (columns : List (List Char)) : List Char :=
  if columns.isEmpty then ['*'] else listed columns

def page : Flavor → List Char
  | .mysql => "LIMIT ?, ?".toList
  | _ => "OFFSET ? LIMIT ?".toList

def pageClause (flavor : Flavor) (wanted : Page) : List (List Char) :=
  if wanted.isPaginated then [page flavor] else []

end Grammar

/-- The text of an assignment's value, with the column it is for. -/
structure Assigned where
  column : Column
  value : List Char

/-- The texts of a tree: one, or those of the members of a list or an optional node. An assignment
keeps its column apart from the text of its value. -/
abbrev Rendered : Category → Type
  | .assignment => Assigned
  | .list c => List (Rendered c)
  | .option c => Option (Rendered c)
  | _ => List Char

namespace Grammar

/-! ## Rows -/

section Rows

variable (flavor : Flavor)

def setting (assigned : Assigned) : List Char :=
  phrase [quoted flavor assigned.column.name, ['='], assigned.value]

def settings (row : List Assigned) : List (List Char) :=
  listIfAny (row.map (setting flavor))

def rowValues (row : List Assigned) : List Char :=
  bracketed (listed (row.map Assigned.value))

/-- The words of an insert of some rows that set the columns of the first one. -/
def insertRows (into : Table) (rows : List (List Assigned)) : List (List Char) :=
  ["INSERT INTO".toList, tableName flavor into,
      columnNames flavor ((rows.head?.getD []).map Assigned.column), "VALUES".toList]
    ++ listIfAny (rows.map rowValues)

/-- What is updated when the key of a new row is already there. -/
def duplicateKeyClause (updates : List Assigned) : List (List Char) :=
  if updates.isEmpty then [] else ["ON DUPLICATE KEY UPDATE".toList] ++ settings flavor updates

/-- What is done when a new row clashes with another one on some columns. -/
def conflictClause (conflict : List Column) (updates : List Assigned) : List (List Char) :=
  if conflict.isEmpty then []
  else ["ON CONFLICT".toList, columnNames flavor conflict]
    ++ (if updates.isEmpty then ["DO NOTHING".toList]
      else ["DO UPDATE SET".toList] ++ settings flavor updates)

end Rows

end Grammar

open Grammar in
/-- The text of a tree at some depth of nesting. A node of a kind that is not known has no text that
anybody writes; its kind stands for it. -/
def Tree.render (flavor : Flavor) (layout : Layout) : {c : Category} → Nat → Tree c → Rendered c
  | _, _, .column node => Grammar.column flavor node.value
  | _, _, .argument _ => ['?']
  | _, d, .declare _ expr name =>
    phrase ([expr.render flavor layout d]
      ++ name.elim [] fun name => ["AS".toList, quoted flavor name])
  | _, d, .binary _ op left right _ =>
    phrase [operand left (left.render flavor layout d), op.symbol.toList,
      operand right (right.render flavor layout d)]
  | _, d, .unary _ op inner _ =>
    if op.followsOperand then
      phrase [operand inner (inner.render flavor layout d), op.symbol.toList]
    else phrase [op.symbol.toList, operand inner (inner.render flavor layout d)]
  | _, d, .between _ expr lower upper negated =>
    phrase ([operand expr (expr.render flavor layout d)] ++ wordIf negated "NOT"
      ++ ["BETWEEN".toList, operand lower (lower.render flavor layout d), "AND".toList,
        operand upper (upper.render flavor layout d)])
  | _, d, .inValues _ left values negated =>
    phrase ([operand left (left.render flavor layout d)] ++ wordIf negated "NOT"
      ++ ["IN".toList, bracketed (listed (values.render flavor layout d))])
  | _, d, .inQuery _ left query negated =>
    phrase ([operand left (left.render flavor layout d)] ++ wordIf negated "NOT"
      ++ ["IN".toList, nested layout d (query.render flavor layout (d + 1))])
  | _, d, .existsQuery _ query negated =>
    phrase (wordIf negated "NOT"
      ++ ["EXISTS".toList, nested layout d (query.render flavor layout (d + 1))])
  | _, d, .aggregate _ function inner distinct _ =>
    function.symbol.toList
      ++ bracketed (phrase (wordIf distinct "DISTINCT"
        ++ [(inner.render flavor layout d).getD ['*']]))
  | _, d, .call _ name arguments _ =>
    name.toList ++ bracketed (listed (arguments.render flavor layout d))
  | _, d, .cast _ expr type =>
    "CAST".toList
      ++ bracketed (phrase [expr.render flavor layout d, "AS".toList, type.name.toList])
  | _, d, .scalarExtension node => (node.render flavor layout d :)
  | _, _, .table node =>
    phrase ([tableName flavor node.value]
      ++ node.value.aliasName.elim [] fun name => [quoted flavor name])
  | _, d, .join _ kind left right condition =>
    stanza layout d [left.render flavor layout d,
      phrase ([kind.keyword.toList, right.render flavor layout d]
        ++ (condition.render flavor layout d).elim [] fun test => ["ON".toList, test])]
  | _, d, .subquery _ query aliasName =>
    phrase ([nested layout d (query.render flavor layout (d + 1))]
      ++ aliasName.elim [] fun name => [quoted flavor name])
  | _, d, .sourceExtension node => (node.render flavor layout d :)
  | _, d, .select _ columns source condition groupBy having distinct orderBy page =>
    stanza layout d
      ([phrase (["SELECT".toList] ++ wordIf distinct "DISTINCT"
          ++ [selection (columns.render flavor layout d)])]
        ++ [phrase ["FROM".toList, source.render flavor layout d]]
        ++ optionalClause "WHERE" (condition.render flavor layout d)
        ++ listClause "GROUP BY" (groupBy.render flavor layout d)
        ++ optionalClause "HAVING" (having.render flavor layout d)
        ++ listClause "ORDER BY" (orderBy.render flavor layout d)
        ++ pageClause flavor page)
  | _, d, .union _ left right all orderBy page =>
    stanza layout d
      ([nested layout d (left.render flavor layout (d + 1)),
          (if all then "UNION ALL" else "UNION").toList,
          nested layout d (right.render flavor layout (d + 1))]
        ++ listClause "ORDER BY" (orderBy.render flavor layout d)
        ++ pageClause flavor page)
  | _, d, .order _ expr descending =>
    phrase ([expr.render flavor layout d] ++ wordIf descending "DESC")
  | _, d, .assign _ target value =>
    { column := target.value, value := value.render flavor layout d }
  | _, d, .duplicateKeyUpsert _ into row updates =>
    phrase (insertRows flavor into.value [row.render flavor layout d]
      ++ duplicateKeyClause flavor (updates.render flavor layout d))
  | _, d, .bulkInsert _ into rows =>
    phrase (insertRows flavor into.value (rows.render flavor layout d))
  | _, d, .naturalJoin _ left right =>
    stanza layout d [left.render flavor layout d,
      phrase ["NATURAL JOIN".toList, right.render flavor layout d]]
  | _, d, .matchAgainst _ columns _ modifier =>
    phrase ["MATCH".toList, bracketed (listed (columns.render flavor layout d)), "AGAINST".toList,
      bracketed (phrase ([['?']]
        ++ modifier.elim [] fun modifier => [modifier.keyword.toList]))]
  | _, d, .ilike _ left right =>
    phrase [operand left (left.render flavor layout d), "ILIKE".toList,
      operand right (right.render flavor layout d)]
  | _, d, .conflictUpsert _ into row conflict updates =>
    phrase (insertRows flavor into.value [row.render flavor layout d]
      ++ conflictClause flavor (conflict.map Node.value) (updates.render flavor layout d))
  | _, _, .foreign _ node => bracketed node.kind.toList
  | _, d, .queryStatement query => (query.render flavor layout d :)
  | _, d, .insert _ into row =>
    phrase (insertRows flavor into.value [row.render flavor layout d])
  | _, d, .insertFromQuery _ into columns query =>
    stanza layout d
      [phrase ["INSERT INTO".toList, tableName flavor into.value,
        columnNames flavor (columns.map Node.value)], query.render flavor layout d]
  | _, d, .update _ into assignments condition =>
    stanza layout d
      ([phrase (["UPDATE".toList, tableName flavor into.value, "SET".toList]
          ++ settings flavor (assignments.render flavor layout d))]
        ++ optionalClause "WHERE" (condition.render flavor layout d))
  | _, d, .delete _ into condition =>
    stanza layout d
      ([phrase ["DELETE FROM".toList, tableName flavor into.value]]
        ++ optionalClause "WHERE" (condition.render flavor layout d))
  | _, d, .scalarStatement scalar => (scalar.render flavor layout d :)
  | _, d, .sourceStatement source => (source.render flavor layout d :)
  | _, d, .extensionStatement node => (node.render flavor layout d :)
  | _, _, .nil => []
  | _, d, .cons head tail => head.render flavor layout d :: tail.render flavor layout d
  | _, _, .absent => none
  | _, d, .present content => some (content.render flavor layout d)

end SqlTree
