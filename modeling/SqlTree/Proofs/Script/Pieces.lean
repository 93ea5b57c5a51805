import SqlTree.Proofs.Text.Word
import SqlTree.Proofs.Tree.Form
import SqlTree.Script.Tree

/-!
# Properties that scripts inherit from their steps

The script of a tree is put together from a few kinds of steps. A property that these steps have,
and that survives putting scripts one behind the other and into the brackets around a query, holds
for the script of every tree. Texts that are written as they are have to be fit for it: fixed words
are, and the names of functions and of types that are not standard are left to the tree.
-/

namespace SqlTree

namespace Script

def isFixed (s : String) : Bool :=
  s.toList.all (· ∉ ['?', '"', '\x60'])

/-- A property that scripts inherit from their steps, and what makes a text fit for it. -/
structure Inherited (P : Script → Prop) (Fit : String → Prop) : Prop where
  fixed {s : String} : isFixed s = true → Fit s
  nil : P []
  append {first rest : Script} : P first → P rest → P (first ++ rest)
  text {s : String} : Fit s → P [.text s]
  identifier (name : String) : P [.identifier name]
  dropBlank : P [.dropBlank]
  newLine : P [.newLine .same]
  placeholder (argument : Argument) : P [.placeholder argument]
  page (query : Query) : P [.page query]
  nested {query : Script} : P query → P (nested query)
  extension {usual : Script} (node : Extension) : P usual → P [.extension node usual]
  refuse (error : Error) : P [.refuse error]
  reject (event : Event) (error : Error) : P [.reject event error]

namespace Inherited

variable {P : Script → Prop} {Fit : String → Prop} (inherited : Inherited P Fit)
  {script rest : Script} {scripts : List Script}

include inherited

theorem cons {step : Step} (first : P [step]) (second : P rest) : P (step :: rest) :=
  inherited.append first second

theorem word (s : String) (simple : isFixed s = true) : P [.text s] :=
  inherited.text (inherited.fixed simple)

theorem keyword (s : String) (simple : isFixed (s ++ " ") = true) : P (keyword s) :=
  inherited.word (s ++ " ") simple

theorem keywordIf (condition : Bool) (s : String) (simple : isFixed (s ++ " ") = true) :
    P (keywordIf condition s) := by
  cases condition with
  | false => exact inherited.nil
  | true => exact inherited.keyword s simple

theorem optional {α : Type} {make : α → Script} {content : Option α}
    (inside : ∀ a ∈ content, P (make a)) : P (optional make content) := by
  cases content with
  | none => exact inherited.nil
  | some a => exact inside a rfl

/-- Commas take the place of blanks. -/
theorem separated (each : ∀ s ∈ scripts, P s) : P (separated scripts) := by
  induction scripts with
  | nil => exact inherited.nil
  | cons first others ih =>
    have head : P first := each first List.mem_cons_self
    have tail := ih fun s member => each s (List.mem_cons_of_mem _ member)
    cases others with
    | nil => exact head
    | cons next others =>
      have comma := inherited.cons inherited.dropBlank (inherited.word ", " (by decide))
      exact inherited.append (inherited.append head comma) tail

/-- Scripts one behind the other. -/
theorem flatten (each : ∀ s ∈ scripts, P s) : P scripts.flatten := by
  induction scripts with
  | nil => exact inherited.nil
  | cons first others ih =>
    exact inherited.append (each first List.mem_cons_self)
      (ih fun s member => each s (List.mem_cons_of_mem _ member))

theorem group (inside : P script) : P (group script) :=
  inherited.append (inherited.cons (inherited.word "(" (by decide)) inside)
    (inherited.cons inherited.dropBlank (inherited.word ") " (by decide)))

theorem tuple (each : ∀ s ∈ scripts, P s) : P (tuple scripts) :=
  inherited.group (inherited.separated each)

theorem operand (node : Scalar) (inside : P script) : P (operand node script) := by
  rw [Script.operand]
  split
  · exact inherited.group inside
  · exact inside

theorem checked (inside : P script) (check : Except Error Unit) (event : Error → Event) :
    P (checked check event script) := by
  cases check with
  | ok => exact inside
  | error error => exact inherited.reject (event error) error

/-! ### Clauses -/

theorem clause (head : String) (simple : isFixed (head ++ " ") = true) (inside : P script) :
    P (clause head script) :=
  inherited.append (inherited.cons inherited.newLine (inherited.keyword head simple)) inside

theorem optionalClause (head : String) (simple : isFixed (head ++ " ") = true)
    {content : Option Script} (inside : ∀ s ∈ content, P s) : P (optionalClause head content) :=
  inherited.optional fun s member => inherited.clause head simple (inside s member)

theorem listClause (head : String) (simple : isFixed (head ++ " ") = true)
    (each : ∀ s ∈ scripts, P s) : P (listClause head scripts) := by
  rw [Script.listClause]
  split
  · exact inherited.nil
  · exact inherited.clause head simple (inherited.separated each)

theorem selection (each : ∀ s ∈ scripts, P s) : P (selection scripts) := by
  rw [Script.selection]
  split
  · exact inherited.word "* " (by decide)
  · exact inherited.separated each

theorem pageClause (query : Query) : P (pageClause query) := by
  rw [Script.pageClause]
  split
  · exact inherited.cons inherited.newLine (inherited.page query)
  · exact inherited.nil

theorem aggregated {content : Option Script} (inside : ∀ s ∈ content, P s) :
    P (aggregated content) := by
  cases content with
  | none => exact inherited.word "*" (by decide)
  | some script => exact inside script rfl

/-! ### Names -/

theorem name (name : String) : P (Script.identifier name) :=
  inherited.cons (inherited.identifier name) (inherited.word " " (by decide))

theorem qualifier (name : Option String) : P (Script.optional Script.qualifier name) :=
  inherited.optional fun name _ =>
    inherited.cons (inherited.identifier name) (inherited.word "." (by decide))

theorem column (c : Column) : P (column c) :=
  inherited.append (inherited.qualifier c.table) (inherited.name c.name)

theorem tableName (t : Table) : P (tableName t) :=
  inherited.append (inherited.append (inherited.qualifier t.catalog) (inherited.qualifier t.schema))
    (inherited.name t.name)

theorem optionalName (name : Option String) : P (Script.optional Script.identifier name) :=
  inherited.optional fun name _ => inherited.name name

theorem columnNames (columns : List Column) : P (columnNames columns) :=
  inherited.tuple (List.forall_mem_map.mpr fun c _ => inherited.name c.name)

/-- Only a custom type can have a name that does not fit. -/
theorem typeName (type : SqlType) (fit : ∀ name, type = .custom name → Fit name) :
    Fit type.name := by
  by_cases custom : ∃ name, type = .custom name
  · obtain ⟨name, rfl⟩ := custom
    exact fit name rfl
  · refine inherited.fixed ?_
    obtain ⟨word, plain, unsized | ⟨size, parts, sized⟩⟩ :=
      SqlType.spelling fun name same => custom ⟨name, same⟩
    · rw [isFixed, unsized]
      exact Word.free_of_all (Word.isPlain.parts plain) rfl
    · rw [isFixed, sized, List.all_append, List.all_append, List.all_cons,
        Word.free_of_all (Word.isPlain.parts plain) rfl, Word.free_of_all parts rfl]
      rfl

/-! ### Rows -/

section Rows

variable {row updates : List Setting}

theorem settings (values : ∀ s ∈ row, P s.value) : P (settings row) :=
  inherited.separated (List.forall_mem_map.mpr fun s member =>
    inherited.append (inherited.name s.column.name)
      (inherited.cons (inherited.word "= " (by decide)) (values s member)))

theorem settingsInSequence (values : ∀ s ∈ row, P s.value) : P (settingsInSequence row) := by
  rw [Script.settingsInSequence, List.flatMap_def]
  exact inherited.flatten (List.forall_mem_map.mpr fun s member =>
    inherited.append (inherited.column s.column) (values s member))

theorem rowValues (values : ∀ s ∈ row, P s.value) : P (rowValues row) :=
  inherited.tuple (List.forall_mem_map.mpr values)

theorem insertHead (t : Table) (columns : List Column) : P (insertHead t columns) :=
  inherited.append (inherited.append (inherited.append
    (inherited.keyword "INSERT INTO" (by decide)) (inherited.tableName t))
    (inherited.columnNames columns)) (inherited.keyword "VALUES" (by decide))

theorem insertRow (t : Table) (values : ∀ s ∈ row, P s.value) : P (insertRow t row) :=
  inherited.append (inherited.insertHead t _) (inherited.rowValues values)

theorem insertRows (t : Table) {rows : List (List Setting)}
    (values : ∀ row ∈ rows, ∀ s ∈ row, P s.value) : P (insertRows t rows) :=
  inherited.append (inherited.insertHead t _) (inherited.separated
    (List.forall_mem_map.mpr fun row member => inherited.rowValues (values row member)))

theorem duplicateKeyClause (values : ∀ s ∈ updates, P s.value) :
    P (duplicateKeyClause updates) := by
  rw [Script.duplicateKeyClause]
  split
  · exact inherited.nil
  · exact inherited.append (inherited.keyword "ON DUPLICATE KEY UPDATE" (by decide))
      (inherited.settings values)

theorem conflictClause (conflict : List Column) (values : ∀ s ∈ updates, P s.value) :
    P (conflictClause conflict updates) := by
  rw [Script.conflictClause]
  split
  · exact inherited.nil
  · refine inherited.append (inherited.append (inherited.keyword "ON CONFLICT" (by decide))
      (inherited.columnNames conflict)) ?_
    split
    · exact inherited.keyword "DO NOTHING" (by decide)
    · exact inherited.append (inherited.keyword "DO UPDATE SET" (by decide))
        (inherited.settings values)

end Rows

end Inherited

end Script

/-! ## Trees -/

def Written.All (P : Script → Prop) : (c : Category) → Written c → Prop
  | .assignment, setting => P setting.value
  | .list c, members => ∀ member ∈ members, Written.All P c member
  | .option c, content => ∀ member ∈ content, Written.All P c member
  | .scalar, script => P script
  | .source, script => P script
  | .query, script => P script
  | .order, script => P script
  | .extension, script => P script
  | .statement, script => P script

def Slot.ScriptsAll (P : Script → Prop) : (s : Slot) → s.Part → Prop
  | .tree c, t => Written.All P c t.script
  | .pair s t, parts => s.ScriptsAll P parts.1 ∧ t.ScriptsAll P parts.2
  | _, _ => True

section Trees

variable {P : Script → Prop} {Fit : String → Prop} (inherited : Script.Inherited P Fit)

include inherited

theorem Frame.scriptsAll_build {c : Category} {s : Slot} (frame : Frame c s) (parts : s.Part)
    (inside : s.ScriptsAll P parts) : Written.All P c (frame.build parts).script := by
  cases frame with
  | column => exact inherited.column _
  | argument => exact inherited.placeholder _
  | table => exact inherited.append (inherited.tableName _) (inherited.optionalName _)
  | scalarExtension | sourceExtension | extensionStatement => exact inherited.extension _ inside
  | queryStatement | scalarStatement | sourceStatement => exact inside
  | nil => exact nofun
  | cons => exact List.forall_mem_cons.mpr inside
  | absent => exact nofun
  | present =>
    intro member found
    cases found
    exact inside

variable {s : Slot} (id : NodeId) (parts : s.Part) (inside : s.ScriptsAll P parts)

include inside

/-- Only calls and casts spell names as they are. -/
theorem Form.scriptsAll_scalar (form : Form .scalar s)
    (names : ∀ name ∈ (form.build id parts).spelledName, Fit name) :
    P (form.build id parts).script := by
  have negation (negated : Bool) : P (Script.keywordIf negated "NOT") :=
    inherited.keywordIf negated "NOT" (by decide)
  cases form with
  | declare name =>
    exact inherited.append inside (inherited.optional fun name _ =>
      inherited.append (inherited.keyword "AS" (by decide)) (inherited.name name))
  | binary op type =>
    have symbol : P (Script.keyword op.symbol) :=
      inherited.keyword op.symbol (by cases op <;> decide)
    exact inherited.append (inherited.append (inherited.operand _ inside.1) symbol)
      (inherited.operand _ inside.2)
  | unary op type =>
    change P (if op.followsOperand then _ else _)
    have symbol : P (Script.keyword op.symbol) :=
      inherited.keyword op.symbol (by cases op <;> decide)
    split
    · exact inherited.append (inherited.operand _ inside) symbol
    · exact inherited.append symbol (inherited.operand _ inside)
  | between negated =>
    exact inherited.append (inherited.append (inherited.append (inherited.append
      (inherited.append (inherited.operand _ inside.1.1) (negation negated))
      (inherited.keyword "BETWEEN" (by decide))) (inherited.operand _ inside.1.2))
      (inherited.keyword "AND" (by decide))) (inherited.operand _ inside.2)
  | inValues negated =>
    exact inherited.append (inherited.append (inherited.append (inherited.operand _ inside.1)
      (negation negated)) (inherited.keyword "IN" (by decide))) (inherited.tuple inside.2)
  | inQuery negated =>
    exact inherited.append (inherited.append (inherited.append (inherited.operand _ inside.1)
      (negation negated)) (inherited.keyword "IN" (by decide))) (inherited.nested inside.2)
  | existsQuery negated =>
    exact inherited.append (inherited.append (negation negated)
      (inherited.keyword "EXISTS" (by decide))) (inherited.nested inside)
  | aggregate function distinct type =>
    have symbol : P [.text function.symbol] := inherited.word _ (by cases function <;> decide)
    exact inherited.cons symbol (inherited.group (inherited.append
      (inherited.keywordIf distinct "DISTINCT" (by decide)) (inherited.aggregated inside)))
  | call name type =>
    exact inherited.cons (inherited.text (names name List.mem_cons_self)) (inherited.tuple inside)
  | cast type =>
    have fit : Fit type.name := by
      refine inherited.typeName type ?_
      rintro name rfl
      exact names name List.mem_cons_self
    exact inherited.append (inherited.append
      (inherited.cons (inherited.word "CAST(" (by decide)) inside)
      (inherited.keyword "AS" (by decide)))
      (inherited.cons (inherited.text fit) (inherited.word ") " (by decide)))

theorem Form.scriptsAll_source (form : Form .source s) : P (form.build id parts).script := by
  cases form with
  | join kind =>
    have keyword : Script.isFixed (kind.keyword ++ " ") = true := by cases kind <;> decide
    exact inherited.append (inherited.append inside.1.1 (inherited.clause _ keyword inside.1.2))
      (inherited.optional fun test member =>
        inherited.append (inherited.keyword "ON" (by decide)) (inside.2 test member))
  | subquery aliasName =>
    exact inherited.append (inherited.nested inside) (inherited.optionalName aliasName)

theorem Form.scriptsAll_query (form : Form .query s) : P (form.build id parts).script := by
  cases form with
  | select distinct page =>
    obtain ⟨⟨⟨⟨⟨columns, source⟩, condition⟩, groupBy⟩, having⟩, orderBy⟩ := inside
    have head := inherited.append (inherited.append (inherited.keyword "SELECT" (by decide))
      (inherited.keywordIf distinct "DISTINCT" (by decide))) (inherited.selection columns)
    exact inherited.append (inherited.append (inherited.append (inherited.append (inherited.append
      (inherited.append head (inherited.clause "FROM" (by decide) source))
      (inherited.optionalClause "WHERE" (by decide) condition))
      (inherited.listClause "GROUP BY" (by decide) groupBy))
      (inherited.optionalClause "HAVING" (by decide) having))
      (inherited.listClause "ORDER BY" (by decide) orderBy)) (inherited.pageClause _)
  | union all page =>
    have keyword : Script.isFixed ((if all then "UNION ALL" else "UNION") ++ " ") = true := by
      cases all <;> decide
    exact inherited.append (inherited.append (inherited.append (inherited.append
      (inherited.nested inside.1.1) (inherited.clause _ keyword inherited.newLine))
      (inherited.nested inside.1.2)) (inherited.listClause "ORDER BY" (by decide) inside.2))
      (inherited.pageClause _)

theorem Form.scriptsAll_extension (form : Form .extension s) :
    P (form.build id parts).script := by
  cases form with
  | duplicateKeyUpsert =>
    exact inherited.append (inherited.insertRow _ inside.1.2)
      (inherited.duplicateKeyClause inside.2)
  | bulkInsert => exact inherited.checked (inherited.insertRows _ inside.2) _ _
  | naturalJoin =>
    exact inherited.append inside.1 (inherited.clause "NATURAL JOIN" (by decide) inside.2)
  | matchAgainst search modifier =>
    have mode : P (Script.optional (fun modifier => Script.keyword modifier.keyword) modifier) :=
      inherited.optional fun modifier _ => inherited.keyword _ (by cases modifier <;> decide)
    exact inherited.append (inherited.append
      (inherited.cons (inherited.word "MATCH " (by decide)) (inherited.tuple inside))
      (inherited.keyword "AGAINST" (by decide)))
      (inherited.group (inherited.cons (inherited.placeholder _) mode))
  | ilike =>
    exact inherited.append (inherited.append (inherited.operand _ inside.1)
      (inherited.keyword "ILIKE" (by decide))) (inherited.operand _ inside.2)
  | conflictUpsert =>
    exact inherited.checked (inherited.append (inherited.insertRow _ inside.1.1.2)
      (inherited.conflictClause _ inside.2)) _ _
  | foreign node => exact inherited.refuse _

theorem Form.scriptsAll_statement (form : Form .statement s) :
    P (form.build id parts).script := by
  cases form with
  | insert => exact inherited.insertRow _ inside.2
  | insertFromQuery =>
    exact inherited.append (inherited.append (inherited.append
      (inherited.keyword "INSERT INTO" (by decide)) (inherited.tableName _))
      (inherited.columnNames _)) (inherited.cons inherited.newLine inside.2)
  | update =>
    exact inherited.append (inherited.append (inherited.append (inherited.append
      (inherited.keyword "UPDATE" (by decide)) (inherited.tableName _))
      (inherited.keyword "SET" (by decide))) (inherited.settings inside.1.2))
      (inherited.optionalClause "WHERE" (by decide) inside.2)
  | delete =>
    exact inherited.append (inherited.append (inherited.keyword "DELETE FROM" (by decide))
      (inherited.tableName _)) (inherited.optionalClause "WHERE" (by decide) inside.2)

/-- The script of a node has the property if those of its parts have it. -/
theorem Form.scriptsAll_build {c : Category} (form : Form c s)
    (names : ∀ name ∈ (form.build id parts).spelledName, Fit name) :
    Written.All P c (form.build id parts).script := by
  cases c with
  | scalar => exact form.scriptsAll_scalar inherited id parts inside names
  | source => exact form.scriptsAll_source inherited id parts inside
  | query => exact form.scriptsAll_query inherited id parts inside
  | extension => exact form.scriptsAll_extension inherited id parts inside
  | statement => exact form.scriptsAll_statement inherited id parts inside
  | assignment =>
    cases form
    exact inside.2
  | order =>
    cases form with
    | order descending =>
      exact inherited.append inside (inherited.keywordIf descending "DESC" (by decide))
  | list => cases form
  | option => cases form

omit inside in
/-- The induction over the tree, for parts. -/
theorem Slot.scriptsAll
    (names : ∀ name ∈ s.collect { before := Tree.spelledName } parts, Fit name) :
    s.ScriptsAll P parts := by
  induction s, parts using Slot.induction with
  | unit | table | column | argument | noColumns | moreColumns => trivial
  | pair a b first second ihFirst ihSecond =>
    exact ⟨ihFirst fun name member => names name (List.mem_append_left _ member),
      ihSecond fun name member => names name (List.mem_append_right _ member)⟩
  | frame frame parts ih =>
    have inside := ih fun name member => names name (frame.mem_collect_build member)
    exact frame.scriptsAll_build inherited parts inside
  | node form id parts ih =>
    have inside := ih fun name member => names name (form.mem_collect_build (.inr member))
    have own := fun name member => names name (form.mem_collect_build (.inl member))
    exact form.scriptsAll_build inherited id parts inside own

omit inside in
/-- A property that scripts inherit from their steps holds for the script of every tree, if the
names that the tree spells as they are are fit for it. -/
theorem Tree.scriptsAll {c : Category} (tree : Tree c)
    (names : ∀ name ∈ tree.spelledNames, Fit name) : Written.All P c tree.script :=
  Slot.scriptsAll (s := .tree c) inherited tree names

end Trees

end SqlTree
