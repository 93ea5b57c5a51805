import SqlTree.Proofs.Script.Writing
import SqlTree.Proofs.Text.NonblankEnds

/-!
# The text of a tree is what the grammar says

The script of a tree, if it succeeds, writes the text that the grammar gives the tree, with one
blank behind it and whatever was there before in front of it. This holds for every layout and depth;
`Tree.writes_script` is the statement for whole trees.
-/

namespace SqlTree

open Script

def WritesAs (flavor : Flavor) (options : FormatOptions) (depth : Nat) :
    (c : Category) → Written c → Rendered c → Prop
  | .assignment, setting, assigned => WritesSetting flavor options depth setting assigned
  | .list c, scripts, texts => List.Forall₂ (WritesAs flavor options depth c) scripts texts
  | .option c, content, text => Option.Rel (WritesAs flavor options depth c) content text
  | .scalar, script, text => Writes flavor options depth script text
  | .source, script, text => Writes flavor options depth script text
  | .query, script, text => Writes flavor options depth script text
  | .order, script, text => Writes flavor options depth script text
  | .extension, script, text => Writes flavor options depth script text
  | .statement, script, text => Writes flavor options depth script text

/-- The parts of a node are written as the grammar says, at any depth. -/
def Slot.WritesAs (flavor : Flavor) (options : FormatOptions) : (s : Slot) → s.Part → Prop
  | .tree c, t =>
    ∀ depth, SqlTree.WritesAs flavor options depth c t.script (t.render flavor options.layout depth)
  | .pair s t, parts => s.WritesAs flavor options parts.1 ∧ t.WritesAs flavor options parts.2
  | _, _ => True

section Trees

variable (flavor : Flavor) (options : FormatOptions)

/-- Leaves, lists and what stands for another node are written as their parts. -/
theorem Frame.writesAs_build {c : Category} {s : Slot} (frame : Frame c s) (parts : s.Part)
    (inside : s.WritesAs flavor options parts) (depth : Nat) :
    WritesAs flavor options depth c (frame.build parts).script
      ((frame.build parts).render flavor options.layout depth) := by
  cases frame with
  | column => exact writes_column _
  | argument => exact writes_placeholder _
  | table => exact ((writes_tableName _).joins.append (follows_optionalName _)).writes
  | scalarExtension | sourceExtension | extensionStatement =>
    exact writes_extension parts (inside depth)
  | queryStatement | scalarStatement | sourceStatement => exact inside depth
  | nil => exact .nil
  | cons => exact .cons (inside.1 depth) (inside.2 depth)
  | absent => exact .none
  | present => exact .some (inside depth)

/-- Queries do not end in white space, so that they can be put in brackets. -/
theorem Tree.writes_nested (query : Query) (depth : Nat)
    (inside : Slot.query.WritesAs flavor options query) :
    Writes flavor options depth (nested query.script)
      (Grammar.nested options.layout depth (query.render flavor options.layout (depth + 1))) := by
  have nonblank : NonblankEnds False (query.render flavor options.layout (depth + 1)) :=
    query.nonblankTexts_render flavor options.layout (depth + 1) False.elim
  have written : Writes flavor options (depth + 1) query.script _ := inside (depth + 1)
  obtain ⟨front, last, ends, solid⟩ := nonblank.ends.exists_append
  rw [ends] at written ⊢
  exact written.nested solid

/-- A scalar is written as the grammar says if its parts are. -/
theorem Form.writes_scalar {s : Slot} (form : Form .scalar s) (id : NodeId) (parts : s.Part)
    (inside : s.WritesAs flavor options parts) (depth : Nat) :
    Writes flavor options depth (form.build id parts).script
      ((form.build id parts).render flavor options.layout depth) := by
  cases form with
  | declare name =>
    refine (Writes.joins (inside depth) |>.append ?_).writes
    cases name with
    | none => exact .nil
    | some name => exact (writes_keyword "AS").follows.append (writes_identifier name).follows
  | binary op type =>
    have left := Writes.operand (inside.1 depth) parts.1
    have right := Writes.operand (inside.2 depth) parts.2
    exact ((left.joins.append (writes_keyword op.symbol).follows).append right.follows).writes
  | unary op type =>
    have inner := Writes.operand (inside depth) parts
    change Writes flavor options depth (if op.followsOperand then _ else _)
      (if op.followsOperand then _ else _)
    split
    · exact (inner.joins.append (writes_keyword op.symbol).follows).writes
    · exact ((writes_keyword op.symbol).joins.append inner.follows).writes
  | between negated =>
    have expr := Writes.operand (inside.1.1 depth) parts.1.1
    have lower := Writes.operand (inside.1.2 depth) parts.1.2
    have upper := Writes.operand (inside.2 depth) parts.2
    have joined := ((((expr.joins.append (follows_keywordIf negated "NOT")).append
      (writes_keyword "BETWEEN").follows).append lower.follows).append
      (writes_keyword "AND").follows).append upper.follows
    exact (joined.of_eq (by simp)).writes
  | inValues negated =>
    have left := Writes.operand (inside.1 depth) parts.1
    have joined := ((left.joins.append (follows_keywordIf negated "NOT")).append
      (writes_keyword "IN").follows).append (writes_tuple (inside.2 depth)).follows
    exact (joined.of_eq (by simp)).writes
  | inQuery negated =>
    have left := Writes.operand (inside.1 depth) parts.1
    have query := Tree.writes_nested flavor options parts.2 depth inside.2
    have joined := ((left.joins.append (follows_keywordIf negated "NOT")).append
      (writes_keyword "IN").follows).append query.follows
    exact (joined.of_eq (by simp)).writes
  | existsQuery negated =>
    have query := Tree.writes_nested flavor options parts depth inside
    have joined := ((writes_keyword "EXISTS").joins.keywordIf negated "NOT").append query.follows
    exact (joined.of_eq (by simp)).writes
  | aggregate function distinct type =>
    exact (appends_text function.symbol).writes
      (writesInGroup_aggregated (inside depth) distinct).group
  | call name type => exact (appends_text name).writes (writes_tuple (inside depth))
  | cast type =>
    have written : Writes flavor options depth parts.script
        (parts.render flavor options.layout depth) := inside depth
    have put := ((appends_text "CAST(").append written).append (writes_keyword "AS") |>.append
      ((appends_text type.name).append (appends_text ") "))
    refine put.of_eq ?_
    simp [Form.build, Tree.render, Grammar.bracketed, Grammar.phrase, Grammar.intercalate_cons_eq]

theorem Form.writes_source {s : Slot} (form : Form .source s) (id : NodeId) (parts : s.Part)
    (inside : s.WritesAs flavor options parts) (depth : Nat) :
    Writes flavor options depth (form.build id parts).script
      ((form.build id parts).render flavor options.layout depth) := by
  cases form with
  | join kind =>
    have left : Writes flavor options depth parts.1.1.script _ := inside.1.1 depth
    have right : Writes flavor options depth parts.1.2.script _ := inside.1.2 depth
    have condition := follows_optional (inside.2 depth) "ON"
    have clause := (((writes_keyword kind.keyword).joins.append right.follows).append
      condition).writes.joins.follows_gap
    refine (left.joins.append clause).writes.of_script_eq ?_
    simp [Form.build, Tree.script, Script.clause]
  | subquery aliasName =>
    have query := Tree.writes_nested flavor options parts depth inside
    exact (query.joins.append (follows_optionalName aliasName)).writes

/-- The clauses of a query stand on lines of their own, each behind a gap. -/
theorem Form.writes_query {s : Slot} (form : Form .query s) (id : NodeId) (parts : s.Part)
    (inside : s.WritesAs flavor options parts) (depth : Nat) :
    Writes flavor options depth (form.build id parts).script
      ((form.build id parts).render flavor options.layout depth) := by
  cases form with
  | select distinct page =>
    obtain ⟨⟨⟨⟨⟨columns, source⟩, condition⟩, groupBy⟩, having⟩, orderBy⟩ := inside
    have head := ((writes_keyword "SELECT").joins.append
      (follows_keywordIf distinct "DISTINCT")).append (writes_selection (columns depth)).follows
    have clauses := ((((head.writes.joins.append (Writes.clause (source depth) "FROM")).append
      (follows_optionalClause (condition depth) "WHERE")).append
      (follows_listClause (groupBy depth) "GROUP BY")).append
      (follows_optionalClause (having depth) "HAVING")).append
      (follows_listClause (orderBy depth) "ORDER BY")
    exact (clauses.append (follows_pageClause _)).writes
  | union all page =>
    have left := Tree.writes_nested flavor options parts.1.1 depth inside.1.1
    have right := Tree.writes_nested flavor options parts.1.2 depth inside.1.2
    have word : Writes flavor options depth (keyword (if all then "UNION ALL" else "UNION")) _ :=
      writes_keyword _
    have more := (word.joins.append right.joins.follows_gap).follows_gap
    have clauses := (left.joins.append more).append
      (follows_listClause (inside.2 depth) "ORDER BY")
    refine (clauses.append (follows_pageClause
      ((Form.union all page).build id parts))).writes.of_script_eq ?_
    simp [Form.build, Tree.script, Script.clause]

/-- The usual form of an extension node, which its flavor writes. -/
theorem Form.writes_extension {s : Slot} (form : Form .extension s) (id : NodeId) (parts : s.Part)
    (inside : s.WritesAs flavor options parts) (depth : Nat) :
    Writes flavor options depth (form.build id parts).script
      ((form.build id parts).render flavor options.layout depth) := by
  cases form with
  | duplicateKeyUpsert =>
    exact ((joins_insertRow _ (inside.1.2 depth)).append
      (follows_duplicateKeyClause (inside.2 depth))).writes
  | bulkInsert => exact writes_checked _ _ (joins_insertRows _ (inside.2 depth)).writes
  | naturalJoin =>
    have left : Writes flavor options depth parts.1.script _ := inside.1 depth
    exact (left.joins.append (Writes.clause (inside.2 depth) "NATURAL JOIN")).writes
  | matchAgainst search modifier =>
    have word : Writes flavor options depth [.text "MATCH "] "MATCH".toList := appends_text "MATCH "
    have modified : Follows flavor options depth [' ']
        (optional (fun modifier => keyword modifier.keyword) modifier)
        (modifier.elim [] fun modifier => [modifier.keyword.toList]) := by
      cases modifier with
      | none => exact .nil
      | some modifier => exact (writes_keyword modifier.keyword).follows
    have against := ((writes_placeholder (Tree.searchArgument search)).joins.append
      modified).writes.writesInGroup.group
    exact (((word.joins.append (writes_tuple (inside depth)).follows).append
      (writes_keyword "AGAINST").follows).append against.follows).writes
  | ilike =>
    have left := Writes.operand (inside.1 depth) parts.1
    have right := Writes.operand (inside.2 depth) parts.2
    exact ((left.joins.append (writes_keyword "ILIKE").follows).append right.follows).writes
  | conflictUpsert =>
    exact writes_checked _ _ ((joins_insertRow _ (inside.1.1.2 depth)).append
      (follows_conflictClause _ (inside.2 depth))).writes
  | foreign node => exact fun _ => moves_refuse _

theorem Form.writes_statement {s : Slot} (form : Form .statement s) (id : NodeId) (parts : s.Part)
    (inside : s.WritesAs flavor options parts) (depth : Nat) :
    Writes flavor options depth (form.build id parts).script
      ((form.build id parts).render flavor options.layout depth) := by
  cases form with
  | insert => exact (joins_insertRow _ (inside.2 depth)).writes
  | insertFromQuery =>
    have query : Writes flavor options depth parts.2.script _ := inside.2 depth
    have word : Writes flavor options depth (keyword "INSERT INTO") _ := writes_keyword _
    have head := (word.joins.append (writes_tableName parts.1.1.value).follows).append
      (writes_columnNames (parts.1.2.map Node.value)).follows
    exact (head.writes.joins.append query.joins.follows_gap).writes
  | update =>
    have word : Writes flavor options depth (keyword "UPDATE") _ := writes_keyword _
    have head := ((word.joins.append
      (writes_tableName parts.1.1.value).follows).append (writes_keyword "SET").follows).append
      (follows_settings (inside.1.2 depth))
    exact (head.writes.joins.append (follows_optionalClause (inside.2 depth) "WHERE")).writes
  | delete =>
    have word : Writes flavor options depth (keyword "DELETE FROM") _ := writes_keyword _
    have head := word.joins.append (writes_tableName parts.1.value).follows
    exact (head.writes.joins.append (follows_optionalClause (inside.2 depth) "WHERE")).writes

/-- A node is written as the grammar says if its parts are. -/
theorem Form.writesAs_build {c : Category} {s : Slot} (form : Form c s) (id : NodeId)
    (parts : s.Part) (inside : s.WritesAs flavor options parts) (depth : Nat) :
    WritesAs flavor options depth c (form.build id parts).script
      ((form.build id parts).render flavor options.layout depth) := by
  cases c with
  | scalar => exact form.writes_scalar flavor options id parts inside depth
  | source => exact form.writes_source flavor options id parts inside depth
  | query => exact form.writes_query flavor options id parts inside depth
  | extension => exact form.writes_extension flavor options id parts inside depth
  | statement => exact form.writes_statement flavor options id parts inside depth
  | assignment =>
    cases form
    exact ⟨rfl, inside.2 depth⟩
  | order =>
    cases form with
    | order descending =>
      have expr : Writes flavor options depth parts.script _ := inside depth
      exact (expr.joins.append (follows_keywordIf descending "DESC")).writes
  | list => cases form
  | option => cases form

/-- The induction over the tree: scripts and grammar agree at every depth. -/
theorem Slot.writesAs (s : Slot) (parts : s.Part) : s.WritesAs flavor options parts := by
  induction s, parts using Slot.induction with
  | unit | table | column | argument | noColumns | moreColumns => trivial
  | pair a b first second ihFirst ihSecond => exact ⟨ihFirst, ihSecond⟩
  | frame frame parts ih => exact frame.writesAs_build flavor options parts ih
  | node form id parts ih => exact form.writesAs_build flavor options id parts ih

/-- The script of a tree writes the text that the grammar gives it. -/
theorem Tree.writes_script {c : Category} (tree : Tree c) (depth : Nat) :
    WritesAs flavor options depth c tree.script (tree.render flavor options.layout depth) :=
  Slot.writesAs flavor options (.tree c) tree depth

end Trees

end SqlTree
