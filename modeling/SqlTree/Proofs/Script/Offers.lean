import SqlTree.Proofs.Format.Failure
import SqlTree.Proofs.Tree.Survey

/-!
# What is handed to the dialect

A dialect is asked for two things: extension nodes, and the pages of queries. What the script of a
statement asks for depends on the statement alone. It is every extension node that is not inside
another one, and behind the parts of every query with a page that query, all in the order of the
text. Apart from that, a script outside extension nodes has no step that gives up by itself.
-/

namespace SqlTree

inductive Offer where
  | extension (node : Extension)
  | page (query : Query)

/-- What a step asks the dialect for; `none` stands for a step that gives up by itself. -/
@[simp]
def Step.asks : Step → List (Option Offer)
  | .page query => [some (.page query)]
  | .extension node _ => [some (.extension node)]
  | .refuse _ => [none]
  | .reject _ _ => [none]
  | _ => []

/-- What a script asks the dialect for, outside the usual forms of extension nodes. -/
def Script.asks (script : Script) : List (Option Offer) :=
  script.flatMap Step.asks

def Written.asks : {c : Category} → Written c → List (Option Offer)
  | .assignment, setting => setting.value.asks
  | .list _, members => members.flatMap Written.asks
  | .option _, content => content.elim [] Written.asks
  | .scalar, script => Script.asks script
  | .source, script => Script.asks script
  | .query, script => Script.asks script
  | .order, script => Script.asks script
  | .extension, script => Script.asks script
  | .statement, script => Script.asks script

/-- What a node has to offer, given what its parts have. Nothing inside an extension node is
offered. -/
def Tree.offersAt : {c : Category} → Tree c → List Offer → List Offer
  | .extension, node, _ => [.extension node]
  | .query, query, inside => if query.page.isPaginated then inside ++ [.page query] else inside
  | _, _, inside => inside

/-- What a tree has to offer to a dialect, in the order of its text. -/
def Tree.offers {c : Category} (tree : Tree c) : List Offer :=
  tree.survey Tree.offersAt

/-! ## The parts of a script that ask for something -/

namespace Script

@[simp]
theorem asks_nil : asks [] = [] :=
  rfl

@[simp]
theorem asks_cons (step : Step) (rest : Script) : asks (step :: rest) = step.asks ++ asks rest :=
  rfl

@[simp]
theorem asks_append (first rest : Script) : asks (first ++ rest) = asks first ++ asks rest :=
  List.flatMap_append

@[simp]
theorem asks_keyword (s : String) : asks (keyword s) = [] :=
  rfl

@[simp]
theorem asks_keywordIf (condition : Bool) (s : String) : asks (keywordIf condition s) = [] := by
  cases condition <;> rfl

@[simp]
theorem asks_identifier (name : String) : asks (identifier name) = [] :=
  rfl

@[simp]
theorem asks_qualifier (name : String) : asks (qualifier name) = [] :=
  rfl

@[simp]
theorem elim_nil {α β : Type} (content : Option α) :
    (content.elim [] fun _ => ([] : List β)) = [] := by
  cases content <;> rfl

@[simp]
theorem asks_optional {α : Type} (script : α → Script) (content : Option α) :
    asks (optional script content) = content.elim [] fun a => asks (script a) := by
  cases content <;> rfl

@[simp]
theorem asks_separated (scripts : List Script) :
    asks (separated scripts) = scripts.flatMap asks := by
  induction scripts with
  | nil => rfl
  | cons script rest ih =>
    cases rest with
    | nil => simp [separated]
    | cons next rest => simp [separated, ih]

@[simp]
theorem asks_group (script : Script) : asks (group script) = asks script := by
  simp [group]

@[simp]
theorem asks_tuple (values : List Script) : asks (tuple values) = values.flatMap asks := by
  simp [tuple]

@[simp]
theorem asks_operand (node : Scalar) (script : Script) :
    asks (operand node script) = asks script := by
  cases bracketed : node.needsBrackets <;> simp [operand, bracketed]

@[simp]
theorem asks_nested (query : Script) : asks (nested query) = asks query := by
  simp [nested]

@[simp]
theorem asks_clause (head : String) (script : Script) :
    asks (clause head script) = asks script := by
  simp [clause]

@[simp]
theorem asks_optionalClause (head : String) (content : Option Script) :
    asks (optionalClause head content) = content.elim [] asks := by
  simp only [optionalClause, asks_optional, asks_clause]

@[simp]
theorem asks_listClause (head : String) (entries : List Script) :
    asks (listClause head entries) = entries.flatMap asks := by
  cases entries <;> simp [listClause]

@[simp]
theorem asks_selection (columns : List Script) :
    asks (selection columns) = columns.flatMap asks := by
  cases columns <;> simp [selection]

@[simp]
theorem asks_aggregated (operand : Option Script) :
    asks (aggregated operand) = operand.elim [] asks := by
  cases operand <;> simp [aggregated]

/-- The dialect is asked for a page only if the query has one. -/
theorem asks_pageClause (query : Query) :
    asks (pageClause query) = if query.page.isPaginated then [some (.page query)] else [] := by
  cases paginated : query.page.isPaginated <;> simp [pageClause, paginated]

@[simp]
theorem asks_tableName (t : Table) : asks (tableName t) = [] := by
  simp [tableName]

@[simp]
theorem asks_table (t : Table) : asks (table t) = [] := by
  simp [table]

@[simp]
theorem asks_column (c : Column) : asks (column c) = [] := by
  simp [column]

@[simp]
theorem asks_columnNames (columns : List Column) : asks (columnNames columns) = [] := by
  simp [columnNames, List.flatMap_map]

@[simp]
theorem asks_settings (row : List Setting) :
    asks (settings row) = row.flatMap fun s => asks s.value := by
  simp [settings, List.flatMap_map, setting]

@[simp]
theorem asks_insertRow (t : Table) (row : List Setting) :
    asks (insertRow t row) = row.flatMap fun s => asks s.value := by
  simp [insertRow, insertHead, rowValues, List.flatMap_map]

end Script

/-! ## Trees -/

def Slot.asks : (s : Slot) → s.Part → List (Option Offer)
  | .tree _, t => Written.asks t.script
  | .pair s t, parts => s.asks parts.1 ++ t.asks parts.2
  | _, _ => []

/-- The script of a node asks for what its parts ask for, and for the page of a query. -/
theorem Form.asks_build {c : Category} {s : Slot} (form : Form c s) (id : NodeId) (parts : s.Part)
    (base : c ≠ .extension) {inside : List Offer} (asked : s.asks parts = inside.map some) :
    Written.asks (form.build id parts).script =
      (Tree.offersAt (form.build id parts) inside).map some := by
  have paged (query : Query) :
      (Tree.offersAt query inside).map some =
        inside.map some ++ Script.asks (Script.pageClause query) := by
    rw [Tree.offersAt, Script.asks_pageClause]
    split
    · exact List.map_append
    · exact (List.append_nil _).symm
  cases form with
  | duplicateKeyUpsert | bulkInsert | naturalJoin | matchAgainst | ilike | conflictUpsert
  | foreign => exact absurd rfl base
  | select distinct page =>
    rw [paged, ← asked]
    simp [Form.build, Tree.script, Written.asks, Slot.asks]
  | union all page =>
    rw [paged, ← asked]
    simp [Form.build, Tree.script, Written.asks, Slot.asks]
  | unary op type =>
    cases follows : op.followsOperand <;>
      simpa [Form.build, Tree.script, follows, Written.asks, Slot.asks, Tree.offersAt] using asked
  | _ =>
    simpa [Form.build, Tree.script, Written.asks, Slot.asks, Tree.offersAt] using asked

/-- Whether every extension node in the parts is handed to the dialect by what it stands for. -/
def Slot.routes : Slot → Bool
  | .tree c => c.routes
  | .pair s t => s.routes && t.routes
  | _ => true

theorem Form.routes_parts {c : Category} {s : Slot} (form : Form c s) : s.routes = true := by
  cases form <;> rfl

/-- An extension node offers itself, and nothing that is inside it. -/
theorem Tree.offers_extension (node : Extension) : node.offers = [.extension node] :=
  Tree.survey_eq _ node

/-- Where an extension node stands for a scalar, source or statement, it is handed out. -/
theorem Frame.asks_build {c : Category} {s : Slot} (frame : Frame c s) (parts : s.Part)
    (routed : c.routes = true)
    (inside : s.routes = true → s.asks parts = (s.survey Tree.offersAt parts).map some) :
    Written.asks (frame.build parts).script = (frame.build parts).offers.map some := by
  rw [Tree.offers, Tree.survey_eq]
  cases frame with
  | column => exact Script.asks_column _
  | argument | nil | absent => rfl
  | table => exact Script.asks_table _
  | scalarExtension | sourceExtension | extensionStatement =>
    have offered : [some (Offer.extension parts)] = (Tree.offers parts).map some := by
      rw [Tree.offers_extension]
      rfl
    exact offered.trans (congrArg (List.map some) (List.append_nil _).symm)
  | queryStatement | scalarStatement | sourceStatement => exact inside rfl
  | cons => exact inside (Bool.and_eq_true_iff.mpr ⟨routed, routed⟩)
  | present => exact inside routed

/-- Outside extension nodes the scripts ask the dialect for what the trees have to offer. -/
theorem Slot.asks_eq_offers (s : Slot) (parts : s.Part) (routed : s.routes = true) :
    s.asks parts = (s.survey Tree.offersAt parts).map some := by
  have leaf {c : Category} (tree : Tree c) (nothing : tree.offers = []) :
      [] = ((Slot.tree c).survey Tree.offersAt tree).map some := by
    rw [Slot.survey_tree]
    exact congrArg (List.map some) nothing.symm
  induction s, parts using Slot.induction with
  | unit | noColumns => rfl
  | table node => exact leaf (.table node) (Tree.survey_eq _ _)
  | column node => exact leaf (.column node) (Tree.survey_eq _ _)
  | argument node => exact leaf (.argument node) (Tree.survey_eq _ _)
  | moreColumns node nodes ih =>
    have first : (Tree.column node).offers = [] := Tree.survey_eq _ _
    have divided : Slot.columns.survey Tree.offersAt (node :: nodes) =
        (Tree.column node).offers ++ Slot.columns.survey Tree.offersAt nodes := rfl
    rw [divided, first]
    exact ih rfl
  | pair a b first second ihFirst ihSecond =>
    obtain ⟨routedFirst, routedSecond⟩ := Bool.and_eq_true_iff.mp routed
    rw [Slot.survey_pair, List.map_append, ← ihFirst routedFirst, ← ihSecond routedSecond]
    rfl
  | frame frame parts ih =>
    rw [Slot.survey_tree]
    exact frame.asks_build parts routed ih
  | @node c s form id parts ih =>
    have base : c ≠ .extension := by
      rintro rfl
      cases routed
    rw [Slot.survey_tree, form.survey_build]
    exact form.asks_build id parts base (ih form.routes_parts)

/-- The script of a statement asks the dialect for what the statement has to offer. -/
theorem Tree.asks_script (statement : Statement) :
    Script.asks statement.script = statement.offers.map some := by
  have asked := Slot.asks_eq_offers (.tree .statement) statement rfl
  rwa [Slot.survey_tree] at asked

end SqlTree
