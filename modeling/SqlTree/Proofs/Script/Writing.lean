import Mathlib.Data.List.Forall2
import SqlTree.Proofs.Script.Moves

/-!
# What scripts write

A calculus of partial correctness for scripts under a built-in dialect, in the relations that the
writers of nodes keep to: a script appends a text to whatever is there (`Appends`), writes a text
and one blank (`Writes`), goes on behind a blank with more texts (`Follows`), joins some texts
(`Joins`), or writes a text in a group that has just been opened (`WritesInGroup`). There is one
rule for each way in which scripts are put together.
-/

namespace SqlTree.Script

variable {flavor : Flavor} {options : FormatOptions}

/-! ### Putting texts behind one another -/

/-- A script that appends a text to whatever is there. -/
def Appends (flavor : Flavor) (options : FormatOptions) (depth : Nat) (script : Script)
    (text : List Char) : Prop :=
  ∀ old, Moves flavor options script old depth (old ++ text) depth

/-- A script that appends a text and one blank. -/
def Writes (flavor : Flavor) (options : FormatOptions) (depth : Nat) (script : Script)
    (text : List Char) : Prop :=
  Appends flavor options depth script (text ++ [' '])

/-- A script that goes on behind a blank with more texts, each one behind a separator. -/
def Follows (flavor : Flavor) (options : FormatOptions) (depth : Nat) (separator : List Char)
    (script : Script) (texts : List (List Char)) : Prop :=
  ∀ old, Moves flavor options script (old ++ [' ']) depth
    (old ++ texts.flatMap (separator ++ ·) ++ [' ']) depth

/-- A script that writes some texts, at least one, with a separator between them. -/
structure Joins (flavor : Flavor) (options : FormatOptions) (depth : Nat) (separator : List Char)
    (script : Script) (texts : List (List Char)) : Prop where
  nonempty : texts ≠ []
  writes : Writes flavor options depth script (separator.intercalate texts)

/-- A script that writes a text in a group which has just been opened, once the last blank is taken
back. -/
def WritesInGroup (flavor : Flavor) (options : FormatOptions) (depth : Nat) (script : Script)
    (text : List Char) : Prop :=
  ∀ old, Moves flavor options (script ++ [.dropBlank]) (old ++ ['(']) depth (old ++ ['('] ++ text)
    depth

section Rules

variable {depth : Nat} {separator text text' : List Char} {texts texts' : List (List Char)}
  {script script' : Script}

theorem Appends.append (first : Appends flavor options depth script text)
    (second : Appends flavor options depth script' text') :
    Appends flavor options depth (script ++ script') (text ++ text') := by
  intro old
  rw [← List.append_assoc]
  exact (first old).append (second (old ++ text))

theorem Appends.of_eq (appends : Appends flavor options depth script text) (same : text = text') :
    Appends flavor options depth script text' :=
  same ▸ appends

theorem Writes.of_script_eq (written : Writes flavor options depth script text)
    (same : script = script') : Writes flavor options depth script' text :=
  same ▸ written

theorem appends_nil : Appends flavor options depth [] [] := by
  intro old
  rw [List.append_nil]
  exact .nil

theorem appends_text (s : String) : Appends flavor options depth [.text s] s.toList :=
  fun _ => moves_text s

theorem appends_identifier (name : String) :
    Appends flavor options depth [.identifier name] (Grammar.quoted flavor name) :=
  fun _ => moves_identifier name

/-- A qualifier is written without a blank, in front of the dot. -/
theorem appends_qualifier (name : Option String) :
    Appends flavor options depth (optional qualifier name) (Grammar.qualifier flavor name) := by
  cases name with
  | none => exact appends_nil
  | some name => exact (appends_identifier name).append (appends_text ".")

/-- A text may come ahead of what is written. -/
theorem Appends.writes (first : Appends flavor options depth script text)
    (second : Writes flavor options depth script' text') :
    Writes flavor options depth (script ++ script') (text ++ text') := by
  rw [Writes, List.append_assoc]
  exact first.append second

theorem writes_keyword (s : String) : Writes flavor options depth (keyword s) s.toList := by
  have appends : Appends flavor options depth (keyword s) (s ++ " ").toList := appends_text _
  rw [String.toList_append] at appends
  exact appends

theorem writes_identifier (name : String) :
    Writes flavor options depth (identifier name) (Grammar.quoted flavor name) :=
  (appends_identifier name).append (appends_text " ")

theorem writes_placeholder (argument : Argument) :
    Writes flavor options depth [.placeholder argument] ['?'] :=
  fun _ => moves_placeholder argument

/-- An extension node is written in its usual form; the announcement is no text. -/
theorem writes_extension (node : Extension) (usual : Writes flavor options depth script text) :
    Writes flavor options depth [.extension node script] text :=
  fun old => moves_extension node (usual old)

/-! ### Going on behind a blank -/

theorem Follows.nil : Follows flavor options depth separator [] [] := by
  intro old
  rw [List.flatMap_nil, List.append_nil]
  exact .nil

/-- More texts follow behind the last blank. -/
theorem Follows.append (first : Follows flavor options depth separator script texts)
    (second : Follows flavor options depth separator script' texts') :
    Follows flavor options depth separator (script ++ script') (texts ++ texts') := by
  intro old
  rw [List.flatMap_append, ← List.append_assoc]
  exact (first old).append (second _)

theorem Writes.joins (written : Writes flavor options depth script text) :
    Joins flavor options depth separator script [text] where
  nonempty := List.cons_ne_nil _ _
  writes := by
    rw [List.intercalate_singleton]
    exact written

theorem Joins.of_eq (joined : Joins flavor options depth separator script texts)
    (same : texts = texts') : Joins flavor options depth separator script texts' :=
  same ▸ joined

/-- Joined texts can go on. -/
theorem Joins.append (joined : Joins flavor options depth separator script texts)
    (more : Follows flavor options depth separator script' texts') :
    Joins flavor options depth separator (script ++ script') (texts ++ texts') where
  nonempty := List.append_ne_nil_of_left_ne_nil joined.nonempty _
  writes := by
    intro old
    have first := joined.writes old
    rw [← List.append_assoc] at first
    have moved := first.append (more _)
    rw [Grammar.intercalate_append separator joined.nonempty]
    simpa only [List.append_assoc] using moved

/-- The texts that a script joins can go on behind other ones, once something has written the
separator in the place of the last blank. -/
theorem Joins.follows_of_moves (joined : Joins flavor options depth separator script texts)
    {between : Script} (separated : ∀ old, Moves flavor options between (old ++ [' ']) depth
      (old ++ separator) depth) :
    Follows flavor options depth separator (between ++ script) texts := by
  intro old
  have moved := (separated old).append (joined.writes (old ++ separator))
  rw [Grammar.flatMap_eq_intercalate separator joined.nonempty]
  simpa only [List.append_assoc] using moved

/-- The next words of a phrase stand behind the blank that is already there. -/
theorem Joins.follows (joined : Joins flavor options depth [' '] script texts) :
    Follows flavor options depth [' '] script texts :=
  joined.follows_of_moves fun _ => Moves.nil

/-- The next items of a list stand behind a comma. -/
theorem Joins.follows_comma (joined : Joins flavor options depth [',', ' '] script texts) :
    Follows flavor options depth [',', ' '] ([.dropBlank, .text ", "] ++ script) texts :=
  joined.follows_of_moves fun _ => moves_dropBlank.append (moves_text ", ")

/-- The next clauses stand behind a gap. -/
theorem Joins.follows_gap
    (joined : Joins flavor options depth (options.layout.gap depth) script texts) :
    Follows flavor options depth (options.layout.gap depth) (.newLine .same :: script) texts :=
  joined.follows_of_moves fun _ => moves_newLine_same

theorem Writes.follows (written : Writes flavor options depth script text) :
    Follows flavor options depth [' '] script [text] :=
  written.joins.follows

theorem follows_keywordIf (condition : Bool) (s : String) :
    Follows flavor options depth [' '] (keywordIf condition s) (Grammar.wordIf condition s) := by
  cases condition with
  | false => exact .nil
  | true => exact (writes_keyword s).follows

/-- A phrase may start with a word that is not always there. -/
theorem Joins.keywordIf (joined : Joins flavor options depth [' '] script texts) (condition : Bool)
    (s : String) :
    Joins flavor options depth [' '] (keywordIf condition s ++ script)
      (Grammar.wordIf condition s ++ texts) := by
  cases condition with
  | false => exact joined
  | true => exact (writes_keyword s).joins.append joined.follows

/-- What may be absent is two words more, or none. -/
theorem follows_optional {content : Option Script} {rendered : Option (List Char)}
    (each : Option.Rel (Writes flavor options depth) content rendered) (head : String) :
    Follows flavor options depth [' '] (optional (fun script => keyword head ++ script) content)
      (rendered.elim [] fun text => [head.toList, text]) := by
  cases each with
  | none => exact .nil
  | some written => exact (writes_keyword head).follows.append written.follows

/-! ### Lists and groups -/

/-- Scripts with commas between them write a list, unless there are none. -/
theorem joins_separated {scripts : List Script}
    (each : List.Forall₂ (Writes flavor options depth) scripts texts) (nonempty : texts ≠ []) :
    Joins flavor options depth [',', ' '] (separated scripts) texts := by
  induction each with
  | nil => exact absurd rfl nonempty
  | cons written rest ih =>
    cases rest with
    | nil => exact written.joins
    | cons next others =>
      have more := (ih (List.cons_ne_nil _ _)).follows_comma
      have joined := written.joins.append more
      rw [← List.append_assoc] at joined
      exact joined

/-- A list is one word of a phrase, or none. -/
theorem follows_separated {scripts : List Script}
    (each : List.Forall₂ (Writes flavor options depth) scripts texts) :
    Follows flavor options depth [' '] (separated scripts) (Grammar.listIfAny texts) := by
  cases each with
  | nil => exact .nil
  | cons written rest =>
    exact (joins_separated (.cons written rest) (List.cons_ne_nil _ _)).writes.follows

/-- The blank behind the text is taken back. -/
theorem Writes.writesInGroup (written : Writes flavor options depth script text) :
    WritesInGroup flavor options depth script text := by
  intro old
  have moved := written (old ++ ['('])
  rw [← List.append_assoc] at moved
  exact moved.append moves_dropBlank

/-- Where the last character is no blank, none is taken back. -/
theorem Appends.writesInGroup {last : Char}
    (appends : Appends flavor options depth script (text ++ [last])) (solid : last ≠ ' ') :
    WritesInGroup flavor options depth script (text ++ [last]) := by
  intro old
  have moved := appends (old ++ ['('])
  rw [← List.append_assoc] at moved ⊢
  exact moved.append (moves_dropBlank_of_ne solid)

theorem writesInGroup_nil : WritesInGroup flavor options depth [] [] := by
  intro old
  rw [List.append_nil]
  exact moves_dropBlank_of_ne (by decide)

/-- A group in brackets is one word. -/
theorem WritesInGroup.group (filled : WritesInGroup flavor options depth script text) :
    Writes flavor options depth (group script) (Grammar.bracketed text) := by
  intro old
  have opened : Moves flavor options [.text "("] old depth (old ++ ['(']) depth := moves_text "("
  have closed : Moves flavor options [.text ") "] (old ++ ['('] ++ text) depth
      (old ++ ['('] ++ text ++ [')', ' ']) depth := moves_text ") "
  have moved := (opened.append (filled old)).append closed
  simpa [Script.group, Grammar.bracketed] using moved

/-- A tuple of values is one word, also when it is empty. -/
theorem writes_tuple {scripts : List Script}
    (each : List.Forall₂ (Writes flavor options depth) scripts texts) :
    Writes flavor options depth (tuple scripts) (Grammar.bracketed (Grammar.listed texts)) := by
  cases each with
  | nil => exact writesInGroup_nil.group
  | cons written rest =>
    exact (joins_separated (.cons written rest) (List.cons_ne_nil _ _)).writes.writesInGroup.group

/-- Brackets stand around an operand exactly where the grammar puts them. -/
theorem Writes.operand (written : Writes flavor options depth script text) (node : Scalar) :
    Writes flavor options depth (operand node script) (Grammar.operand node text) := by
  rw [Script.operand, Grammar.operand]
  split
  · exact written.writesInGroup.group
  · exact written

/-! ### Queries and clauses -/

/-- A query in brackets is one word. -/
theorem Writes.nested {front : List Char} {last : Char}
    (written : Writes flavor options (depth + 1) script (front ++ [last])) (solid : last ≠ ' ') :
    Writes flavor options depth (nested script)
      (Grammar.nested options.layout depth (front ++ [last])) := by
  intro old
  have opened : Moves flavor options [.text "(", .newLine .inner] old depth
      (old ++ ['('] ++ options.layout.edge (depth + 1)) (depth + 1) :=
    (moves_text "(").append (moves_newLine_edge (by decide) rfl)
  have inside := written (old ++ ['('] ++ options.layout.edge (depth + 1))
  rw [← List.append_assoc, ← List.append_assoc] at inside
  have outside : ∀ before, Moves flavor options [.newLine .outer] (before ++ [last]) (depth + 1)
      (before ++ [last] ++ options.layout.edge depth) depth :=
    fun _ => moves_newLine_edge solid rfl
  have moved := (opened.append inside).append
    ((moves_dropBlank.append (outside _)).append (moves_text ") "))
  simpa [Script.nested, Grammar.nested] using moved

/-- A clause follows behind the gap of the layout. -/
theorem Writes.clause (written : Writes flavor options depth script text) (head : String) :
    Follows flavor options depth (options.layout.gap depth) (clause head script)
      [Grammar.phrase [head.toList, text]] :=
  ((writes_keyword head).joins.append written.follows).writes.joins.follows_gap

theorem follows_optionalClause {content : Option Script} {rendered : Option (List Char)}
    (each : Option.Rel (Writes flavor options depth) content rendered) (head : String) :
    Follows flavor options depth (options.layout.gap depth) (optionalClause head content)
      (Grammar.optionalClause head rendered) := by
  cases each with
  | none => exact .nil
  | some written => exact written.clause head

theorem follows_listClause {scripts : List Script}
    (each : List.Forall₂ (Writes flavor options depth) scripts texts) (head : String) :
    Follows flavor options depth (options.layout.gap depth) (listClause head scripts)
      (Grammar.listClause head texts) := by
  cases each with
  | nil => exact .nil
  | cons written rest =>
    exact (joins_separated (.cons written rest) (List.cons_ne_nil _ _)).writes.clause head

theorem writes_selection {scripts : List Script}
    (each : List.Forall₂ (Writes flavor options depth) scripts texts) :
    Writes flavor options depth (selection scripts) (Grammar.selection texts) := by
  cases each with
  | nil => exact appends_text "* "
  | cons written rest =>
    exact (joins_separated (.cons written rest) (List.cons_ne_nil _ _)).writes

/-- What an aggregate ranges over. The star has no blank behind it. -/
theorem writesInGroup_aggregated {content : Option Script} {rendered : Option (List Char)}
    (each : Option.Rel (Writes flavor options depth) content rendered) (distinct : Bool) :
    WritesInGroup flavor options depth (keywordIf distinct "DISTINCT" ++ aggregated content)
      (Grammar.phrase (Grammar.wordIf distinct "DISTINCT" ++ [rendered.getD ['*']])) := by
  cases each with
  | some written => exact (written.joins.keywordIf distinct "DISTINCT").writes.writesInGroup
  | none =>
    have star : Appends flavor options depth (aggregated none) ([] ++ ['*']) := appends_text "*"
    cases distinct with
    | false => exact star.writesInGroup (by decide)
    | true =>
      have starred := (writes_keyword "DISTINCT").append star
      rw [← List.append_assoc] at starred
      exact starred.writesInGroup (by decide)

/-- A page is written like a list or a phrase with two placeholders. -/
theorem writes_page (query : Query) :
    Writes flavor options depth [.page query] (Grammar.page flavor) := by
  have phrased : ∀ flavor, Writes flavor options depth
      (keyword "OFFSET" ++ [.placeholder query.page.offsetArgument] ++ keyword "LIMIT"
        ++ [.placeholder query.page.limitArgument])
      (Grammar.phrase ["OFFSET".toList, ['?'], "LIMIT".toList, ['?']]) := fun _ =>
    (((writes_keyword "OFFSET").joins.append (writes_placeholder _).follows).append
      (writes_keyword "LIMIT").follows |>.append (writes_placeholder _).follows).writes
  cases flavor with
  | generic => exact phrased .generic
  | postgresql => exact phrased .postgresql
  | mysql =>
    have each : List.Forall₂ (Writes .mysql options depth)
        [[.placeholder query.page.offsetArgument], [.placeholder query.page.limitArgument]]
        [['?'], ['?']] :=
      .cons (writes_placeholder _) (.cons (writes_placeholder _) .nil)
    have items := (joins_separated each (List.cons_ne_nil _ _)).writes
    exact ((writes_keyword "LIMIT").joins.append items.follows).writes

/-- The page follows in the words of the flavor, if there is one. -/
theorem follows_pageClause (query : Query) :
    Follows flavor options depth (options.layout.gap depth) (pageClause query)
      (Grammar.pageClause flavor query.page) := by
  rw [pageClause, Grammar.pageClause]
  split
  · exact (writes_page query).joins.follows_gap
  · exact .nil

/-! ### Names -/

theorem writes_column (c : Column) :
    Writes flavor options depth (column c) (Grammar.column flavor c) :=
  (appends_qualifier c.table).writes (writes_identifier c.name)

theorem writes_tableName (t : Table) :
    Writes flavor options depth (tableName t) (Grammar.tableName flavor t) :=
  ((appends_qualifier t.catalog).append (appends_qualifier t.schema)).writes
    (writes_identifier t.name)

/-- A name that may be absent is one word more, or none. -/
theorem follows_optionalName (name : Option String) :
    Follows flavor options depth [' '] (optional identifier name)
      (name.elim [] fun name => [Grammar.quoted flavor name]) := by
  cases name with
  | none => exact .nil
  | some name => exact (writes_identifier name).follows

/-- Columns in a row of names carry no qualifiers. -/
theorem writes_columnNames (columns : List Column) :
    Writes flavor options depth (columnNames columns) (Grammar.columnNames flavor columns) := by
  refine writes_tuple ?_
  induction columns with
  | nil => exact .nil
  | cons c rest ih => exact .cons (writes_identifier c.name) ih

/-! ### Rows -/

/-- A setting and the text of its value, for the same column. -/
structure WritesSetting (flavor : Flavor) (options : FormatOptions) (depth : Nat)
    (setting : Setting) (assigned : Assigned) : Prop where
  column : setting.column = assigned.column
  value : Writes flavor options depth setting.value assigned.value

variable {row : List Setting} {assigned : List Assigned}

theorem WritesSetting.writes {setting : Setting} {assigned : Assigned}
    (each : WritesSetting flavor options depth setting assigned) :
    Writes flavor options depth (Script.setting setting) (Grammar.setting flavor assigned) := by
  have equals : Writes flavor options depth [.text "= "] ['='] := appends_text "= "
  have joined := (writes_identifier setting.column.name).joins.append
    (equals.follows.append each.value.follows)
  rw [Grammar.setting, ← each.column]
  exact joined.writes

theorem follows_settings
    (each : List.Forall₂ (WritesSetting flavor options depth) row assigned) :
    Follows flavor options depth [' '] (settings row) (Grammar.settings flavor assigned) := by
  refine follows_separated ?_
  rw [List.forall₂_map_left_iff, List.forall₂_map_right_iff]
  exact each.imp fun _ _ => WritesSetting.writes

theorem writes_rowValues
    (each : List.Forall₂ (WritesSetting flavor options depth) row assigned) :
    Writes flavor options depth (rowValues row) (Grammar.rowValues assigned) := by
  refine writes_tuple ?_
  rw [List.forall₂_map_left_iff, List.forall₂_map_right_iff]
  exact each.imp fun _ _ => WritesSetting.value

theorem map_column_eq (each : List.Forall₂ (WritesSetting flavor options depth) row assigned) :
    row.map Setting.column = assigned.map Assigned.column := by
  induction each with
  | nil => rfl
  | cons first _ ih => rw [List.map_cons, List.map_cons, first.column, ih]

/-- The words of an insert up to its values. -/
theorem joins_insertHead (into : Table) (columns : List Column) :
    Joins flavor options depth [' '] (insertHead into columns)
      ["INSERT INTO".toList, Grammar.tableName flavor into, Grammar.columnNames flavor columns,
        "VALUES".toList] :=
  (((writes_keyword "INSERT INTO").joins.append (writes_tableName into).follows).append
    (writes_columnNames columns).follows).append (writes_keyword "VALUES").follows

/-- Rows are inserted into the columns of the first one. -/
theorem joins_insertRows {rows : List (List Setting)} {assignedRows : List (List Assigned)}
    (into : Table)
    (each : List.Forall₂ (List.Forall₂ (WritesSetting flavor options depth)) rows assignedRows) :
    Joins flavor options depth [' '] (insertRows into rows)
      (Grammar.insertRows flavor into assignedRows) := by
  have columns : (rows.head?.getD []).map Setting.column =
      (assignedRows.head?.getD []).map Assigned.column := by
    cases each with
    | nil => rfl
    | cons first _ => exact map_column_eq first
  have values : List.Forall₂ (Writes flavor options depth) (rows.map rowValues)
      (assignedRows.map Grammar.rowValues) := by
    rw [List.forall₂_map_left_iff, List.forall₂_map_right_iff]
    exact each.imp fun _ _ => writes_rowValues
  rw [insertRows, Grammar.insertRows, columns]
  exact (joins_insertHead into _).append (follows_separated values)

/-- An insert of one row is written like that of several. -/
theorem joins_insertRow (into : Table)
    (each : List.Forall₂ (WritesSetting flavor options depth) row assigned) :
    Joins flavor options depth [' '] (insertRow into row)
      (Grammar.insertRows flavor into [assigned]) :=
  joins_insertRows into (.cons each .nil)

theorem follows_duplicateKeyClause
    (each : List.Forall₂ (WritesSetting flavor options depth) row assigned) :
    Follows flavor options depth [' '] (duplicateKeyClause row)
      (Grammar.duplicateKeyClause flavor assigned) := by
  cases each with
  | nil => exact .nil
  | cons first rest =>
    exact (writes_keyword "ON DUPLICATE KEY UPDATE").follows.append
      (follows_settings (.cons first rest))

theorem follows_conflictClause (conflict : List Column)
    (each : List.Forall₂ (WritesSetting flavor options depth) row assigned) :
    Follows flavor options depth [' '] (conflictClause conflict row)
      (Grammar.conflictClause flavor conflict assigned) := by
  cases conflict with
  | nil => exact .nil
  | cons key keys =>
    have names : Writes flavor options depth (columnNames (key :: keys)) _ := writes_columnNames _
    have target := (writes_keyword "ON CONFLICT").follows.append names.follows
    cases each with
    | nil => exact target.append (writes_keyword "DO NOTHING").follows
    | cons first rest =>
      exact target.append ((writes_keyword "DO UPDATE SET").follows.append
        (follows_settings (.cons first rest)))

/-- A script that is run only if a check has passed writes what it writes. -/
theorem writes_checked (check : Except Error Unit) (event : Error → Event)
    (written : Writes flavor options depth script text) :
    Writes flavor options depth (checked check event script) text := by
  cases check with
  | ok => exact written
  | error error => exact fun _ => moves_reject (event error) error

end Rules

end SqlTree.Script
