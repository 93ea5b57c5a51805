import SqlTree.Proofs.Script.Trace

/-!
# Signals of a tree

What a tree does apart from being written: it binds parameters, announces its extension nodes to the
dialect, and fails where a node is not owned or does not pass its check. `Tree.signals` lists this
by a plain recursion over the tree. `Tree.trace_script` says that the script of the tree leaves the
same trace, so every law about parameters, events and errors is a law about `Tree.signals`.
-/

namespace SqlTree

def Page.bindings (page : Page) : List Action :=
  if page.isPaginated then
    [.placeholder page.offsetArgument, .placeholder page.limitArgument]
  else []

/-- An extension node is announced, and refused unless the flavor owns it. -/
def Flavor.announcement (flavor : Flavor) (node : Extension) : List Action :=
  .report (.routed flavor.name node.kind)
    :: if flavor.owns node then [] else [.fail (.unsupportedNode node.kind)]

/-- A failed check is reported before the node is given up. -/
def rejection (check : Except Error Unit) (event : Error → Event) : List Action :=
  match check with
  | .ok () => []
  | .error error => [.report (event error), .fail error]

/-- What a node announces and refuses before any of its parts. -/
def Tree.entrySignals (flavor : Flavor) : {c : Category} → Tree c → List Action
  | _, .scalarExtension node => flavor.announcement node
  | _, .sourceExtension node => flavor.announcement node
  | _, .extensionStatement node => flavor.announcement node
  | _, .bulkInsert _ into rows =>
    rejection (validateBulkInsert into.value rows) (.rejectedBulkInsert into.value.name)
  | _, .conflictUpsert _ into _ conflict updates =>
    rejection (validateConflictTarget into.value conflict updates) (.rejectedUpsert into.value.name)
  | _, .foreign _ node => [.fail (.unsupportedNode node.kind)]
  | _, _ => []

/-- What a node binds behind its parts. -/
def Tree.exitSignals : {c : Category} → Tree c → List Action
  | _, .select _ _ _ _ _ _ _ _ page => page.bindings
  | _, .union _ _ _ _ _ page => page.bindings
  | _, .matchAgainst _ _ search _ => [.placeholder (searchArgument search)]
  | _, _ => []

/-- What each node binds, announces and refuses. -/
def Flavor.signals (flavor : Flavor) : Contribution Action where
  argument node := [.placeholder node.value]
  before := Tree.entrySignals flavor
  after := Tree.exitSignals

namespace Flavor

variable (flavor : Flavor)

@[simp]
theorem signals_table (node : Node Table) : flavor.signals.table node = [] :=
  rfl

@[simp]
theorem signals_column (node : Node Column) : flavor.signals.column node = [] :=
  rfl

@[simp]
theorem signals_argument (node : Node Argument) :
    flavor.signals.argument node = [.placeholder node.value] :=
  rfl

/-- A node signals before and behind its parts. -/
theorem signals_around {c : Category} (node : Tree c) (parts : List Action) :
    flavor.signals.around node parts = node.entrySignals flavor ++ parts ++ node.exitSignals :=
  rfl

end Flavor

/-- Everything that a tree binds, announces and refuses, in the order of its text. -/
def Tree.signals (flavor : Flavor) {c : Category} (tree : Tree c) : List Action :=
  tree.collect flavor.signals

def Written.trace (flavor : Flavor) : {c : Category} → Written c → Trace
  | .assignment, setting => Script.trace flavor setting.value
  | .list _, members => Trace.join (members.map (Written.trace flavor))
  | .option _, content => (content.map (Written.trace flavor)).getD ∅
  | .scalar, script => Script.trace flavor script
  | .source, script => Script.trace flavor script
  | .query, script => Script.trace flavor script
  | .order, script => Script.trace flavor script
  | .extension, script => Script.trace flavor script
  | .statement, script => Script.trace flavor script

/-! ## The parts of a script that are signals -/

section

open SqlTree.Action

variable (flavor : Flavor)

@[simp]
theorem Action.traceAll_nil : traceAll [] = ∅ :=
  rfl

@[simp]
theorem Action.traceAll_placeholder (argument : Argument) :
    traceAll [.placeholder argument] = { parameters := [argument] } :=
  rfl

/-- An extension node is announced, and refused at once unless the flavor owns it. -/
@[simp]
theorem trace_extension (node : Extension) (usual : Script) :
    (Step.extension node usual).trace flavor =
      traceAll (flavor.announcement node) ++ Script.trace flavor usual := by
  rw [Step.trace, Step.actions, Flavor.announcement, Script.trace]
  cases flavor.owns node with
  | true => simp [traceAll]
  | false =>
    have stopped : (Action.fail (.unsupportedNode node.kind)).trace.error =
        some (.unsupportedNode node.kind) := rfl
    simp only [traceAll, Bool.false_eq_true, if_false, Trace.append_assoc,
      Trace.append_of_stopped stopped]

/-- A failed check is reported, and nothing is written. -/
@[simp]
theorem trace_checked (check : Except Error Unit) (event : Error → Event) (script : Script) :
    Script.trace flavor (Script.checked check event script) =
      traceAll (rejection check event) ++ Script.trace flavor script := by
  cases check with
  | ok => simp [Script.checked, rejection]
  | error error =>
    have stopped : (traceAll (rejection (.error error) event)).error = some error := rfl
    rw [Trace.append_of_stopped stopped]
    rfl

/-- A page binds its parameters where it is written. -/
@[simp]
theorem trace_pageClause (query : Query) :
    Script.trace flavor (Script.pageClause query) = traceAll query.page.bindings := by
  cases paginated : query.page.isPaginated with
  | false => simp [Script.pageClause, Page.bindings, paginated]
  | true =>
    simp only [Script.pageClause, Page.bindings, paginated, if_true, Script.trace_cons,
      Step.trace_newLine, Step.trace_page, Script.trace_nil, Trace.empty_append, Trace.append_empty]
    rfl

/-- Without conflict columns no update is written, but then the check has failed if there is one. -/
theorem trace_conflictUpsert (t : Table) (conflict : List (Node Column))
    (updates : Tree (.list .assignment)) (row : Script) :
    Script.trace flavor
        (Script.checked (validateConflictTarget t conflict updates) (.rejectedUpsert t.name)
          (row ++ Script.conflictClause (conflict.map Node.value) updates.script)) =
      traceAll (rejection (validateConflictTarget t conflict updates) (.rejectedUpsert t.name))
        ++ (Script.trace flavor row ++ Written.trace flavor updates.script) := by
  rw [trace_checked, Script.trace_append, Script.trace_conflictClause]
  cases conflict with
  | cons => rfl
  | nil =>
    cases updates with
    | nil => rfl
    | cons entry rest =>
      have stopped : (traceAll (rejection (validateConflictTarget t [] (.cons entry rest))
          (.rejectedUpsert t.name))).error = some (.missingConflictTarget t.name) := rfl
      rw [Trace.append_of_stopped stopped, Trace.append_of_stopped stopped]

end

theorem Flavor.flatMap_signals_column (flavor : Flavor) (columns : List (Node Column)) :
    columns.flatMap flavor.signals.column = [] := by
  induction columns with
  | nil => rfl
  | cons column columns ih => rw [List.flatMap_cons, ih, signals_column, List.append_nil]

/-- The script of a tree binds, reports and fails exactly as the tree's signals say. -/
theorem Tree.trace_script (flavor : Flavor) {c : Category} (tree : Tree c) :
    Written.trace flavor tree.script = Action.traceAll (tree.signals flavor) := by
  rw [signals]
  induction tree with
  | nil | absent => rfl
  | foreign => rfl
  | conflictUpsert id into row conflict updates ihRow ihUpdates =>
    rw [script, Written.trace, trace_conflictUpsert, ihUpdates, Script.trace_insertRow]
    simp only [collect, Flavor.signals_around, entrySignals, exitSignals, Action.traceAll_append,
      Flavor.signals_table, Flavor.flatMap_signals_column, ← ihRow, Written.trace, List.append_nil,
      List.nil_append]
  | unary id op operand type ih =>
    cases follows : op.followsOperand <;>
      simp_all [script, Written.trace, collect, Flavor.signals_around, entrySignals, exitSignals]
  | _ =>
    simp_all [script, Written.trace, collect, Flavor.signals_around, entrySignals, exitSignals,
      Action.traceAll_append, Flavor.flatMap_signals_column, Trace.join, Tree.page]

end SqlTree
