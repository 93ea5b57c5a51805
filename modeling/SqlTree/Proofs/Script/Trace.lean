import SqlTree.Proofs.Script.Action
import SqlTree.Proofs.Tree.Collect

/-!
# Traces

Apart from the text, a list of actions leaves a trace: the parameters it binds, the events it
reports and the error at which it stops. Nothing behind that error counts, so traces are put
together by an append that stops at the first error. The trace of a script is computed from the
traces of its parts, whatever keywords, brackets and line breaks stand between them.
-/

namespace SqlTree

/-- What a list of actions leaves behind apart from text. -/
structure Trace where
  parameters : List Argument := []
  events : List Event := []
  /-- The error at which the actions stop. -/
  error : Option Error := none
  deriving DecidableEq

namespace Trace

/-- One trace and then another, unless the first one stops. -/
def append (first rest : Trace) : Trace :=
  match first.error with
  | some _ => first
  | none =>
    { parameters := first.parameters ++ rest.parameters
      events := first.events ++ rest.events
      error := rest.error }

instance : Append Trace := ⟨append⟩

instance : EmptyCollection Trace := ⟨{}⟩

/-- Nothing behind an error counts. -/
theorem append_of_stopped {first : Trace} {error : Error} (stopped : first.error = some error)
    (rest : Trace) : first ++ rest = first := by
  change append first rest = first
  rw [append, stopped]

theorem append_of_going {first : Trace} (going : first.error = none) (rest : Trace) :
    first ++ rest =
      { parameters := first.parameters ++ rest.parameters
        events := first.events ++ rest.events
        error := rest.error } := by
  change append first rest = _
  rw [append, going]

@[simp]
theorem empty_append (trace : Trace) : ∅ ++ trace = trace :=
  append_of_going rfl trace

@[simp]
theorem append_empty (trace : Trace) : trace ++ ∅ = trace := by
  cases stopped : trace.error with
  | none => simp [append_of_going stopped, ← stopped, EmptyCollection.emptyCollection]
  | some error => exact append_of_stopped stopped _

/-- Traces may be grouped in any way. -/
theorem append_assoc (first second third : Trace) :
    first ++ second ++ third = first ++ (second ++ third) := by
  cases stopped : first.error with
  | some error => simp only [append_of_stopped stopped]
  | none =>
    rw [append_of_going stopped second, append_of_going stopped (second ++ third)]
    cases stopped' : second.error with
    | some error =>
      rw [append_of_stopped stopped', stopped']
      exact append_of_stopped rfl third
    | none => simp [append_of_going, stopped']

def silent (trace : Trace) : Trace :=
  { trace with parameters := [] }

theorem silent_append (first rest : Trace) :
    (first ++ rest).silent = first.silent ++ rest.silent := by
  cases stopped : first.error with
  | some error =>
    have stillStopped : first.silent.error = some error := stopped
    rw [append_of_stopped stopped, append_of_stopped stillStopped]
  | none =>
    have stillGoing : first.silent.error = none := stopped
    rw [append_of_going stopped, append_of_going stillGoing]
    rfl

def join : List Trace → Trace
  | [] => ∅
  | trace :: rest => trace ++ join rest

theorem join_map_empty {α : Type} (items : List α) : join (items.map fun _ => ∅) = ∅ := by
  induction items with
  | nil => rfl
  | cons item items ih => rw [List.map_cons, join, ih, empty_append]

@[simp]
theorem getD_map_empty {α : Type} (content : Option α) :
    (content.map fun _ => (∅ : Trace)).getD ∅ = ∅ := by
  cases content <;> rfl

end Trace

/-! ## Traces of actions -/

namespace Action

/-- The trace of one action. Only a failure stops; a line break that fails is the concern of the
layout. -/
def trace : Action → Trace
  | .placeholder argument => { parameters := [argument] }
  | .report event => { events := [event] }
  | .fail error => { error := some error }
  | _ => ∅

def traceAll : List Action → Trace
  | [] => ∅
  | action :: rest => action.trace ++ traceAll rest

/-- The trace of actions in a row. -/
theorem traceAll_append (first rest : List Action) :
    traceAll (first ++ rest) = traceAll first ++ traceAll rest := by
  induction first with
  | nil => exact (Trace.empty_append _).symm
  | cons action first ih => rw [List.cons_append, traceAll, traceAll, ih, Trace.append_assoc]

theorem traceAll_reports (events : List Event) : traceAll (events.map .report) = { events } := by
  induction events with
  | nil => rfl
  | cons event events ih =>
    rw [List.map_cons, traceAll, ih]
    rfl

/-- An action that succeeds binds and reports what its trace says. -/
theorem apply_ok {style : Style} {action : Action} {f g : Formatter}
    (success : action.apply style f = (.ok (), g)) :
    action.trace.error = none ∧
    g.parameters.toList = f.parameters.toList ++ action.trace.parameters ∧
    g.events.toList = f.events.toList ++ action.trace.events := by
  cases action with
  | write | identifier | dropBlank | placeholder | report =>
    cases success
    simp [trace, EmptyCollection.emptyCollection]
  | newLine shift =>
    rw [apply] at success
    split at success
    · cases success
    · cases success
      simp [trace, EmptyCollection.emptyCollection]
  | fail error => cases success

/-- A list of actions that succeeds binds and reports what its trace says, and its trace does not
stop. -/
theorem exec_ok {style : Style} {actions : List Action} {f g : Formatter}
    (success : exec style actions f = (.ok (), g)) :
    (traceAll actions).error = none ∧
    g.parameters.toList = f.parameters.toList ++ (traceAll actions).parameters ∧
    g.events.toList = f.events.toList ++ (traceAll actions).events := by
  induction actions generalizing f with
  | nil =>
    cases success
    simp [traceAll, EmptyCollection.emptyCollection]
  | cons action rest ih =>
    obtain ⟨_, h, applied, success⟩ := Outcome.andThen_eq_ok success
    obtain ⟨going, bound, reported⟩ := apply_ok applied
    obtain ⟨goingRest, boundRest, reportedRest⟩ := ih success
    rw [traceAll, Trace.append_of_going going]
    exact ⟨goingRest, by simp [boundRest, bound], by simp [reportedRest, reported]⟩

end Action

/-! ## Traces of scripts -/

def Step.trace (flavor : Flavor) (step : Step) : Trace :=
  Action.traceAll (step.actions flavor)

def Script.trace (flavor : Flavor) (script : Script) : Trace :=
  Action.traceAll (Script.actions flavor script)

namespace Step

variable (flavor : Flavor)

@[simp]
theorem trace_text (s : String) : (Step.text s).trace flavor = ∅ :=
  rfl

@[simp]
theorem trace_identifier (name : String) : (Step.identifier name).trace flavor = ∅ :=
  rfl

@[simp]
theorem trace_dropBlank : Step.dropBlank.trace flavor = ∅ :=
  rfl

@[simp]
theorem trace_newLine (shift : Shift) : (Step.newLine shift).trace flavor = ∅ :=
  rfl

@[simp]
theorem trace_placeholder (argument : Argument) :
    (Step.placeholder argument).trace flavor = { parameters := [argument] } :=
  rfl

@[simp]
theorem trace_page (query : Query) :
    (Step.page query).trace flavor =
      { parameters := [query.page.offsetArgument, query.page.limitArgument] } := by
  cases flavor <;> rfl

end Step

namespace Script

variable (flavor : Flavor)

@[simp]
theorem trace_nil : trace flavor [] = ∅ :=
  rfl

@[simp]
theorem trace_cons (step : Step) (rest : Script) :
    trace flavor (step :: rest) = step.trace flavor ++ trace flavor rest := by
  rw [trace, actions_cons, Action.traceAll_append, Step.trace, trace]

@[simp]
theorem trace_append (first rest : Script) :
    trace flavor (first ++ rest) = trace flavor first ++ trace flavor rest := by
  rw [trace, actions_append, Action.traceAll_append, trace, trace]

@[simp]
theorem trace_keyword (s : String) : trace flavor (keyword s) = ∅ :=
  rfl

@[simp]
theorem trace_keywordIf (condition : Bool) (s : String) :
    trace flavor (keywordIf condition s) = ∅ := by
  cases condition <;> rfl

@[simp]
theorem trace_identifier (name : String) : trace flavor (identifier name) = ∅ :=
  rfl

@[simp]
theorem trace_qualifier (name : String) : trace flavor (qualifier name) = ∅ :=
  rfl

@[simp]
theorem trace_optional {α : Type} (script : α → Script) (content : Option α) :
    trace flavor (optional script content) =
      (content.map fun a => trace flavor (script a)).getD ∅ := by
  cases content <;> rfl

/-- Commas leave no trace. -/
@[simp]
theorem trace_separated (scripts : List Script) :
    trace flavor (separated scripts) = Trace.join (scripts.map (trace flavor)) := by
  induction scripts with
  | nil => rfl
  | cons script rest ih =>
    cases rest with
    | nil => simp [separated, Trace.join]
    | cons next rest => simp [separated, ih, Trace.join]

@[simp]
theorem trace_group (script : Script) : trace flavor (group script) = trace flavor script := by
  simp [group]

@[simp]
theorem trace_tuple (values : List Script) :
    trace flavor (tuple values) = Trace.join (values.map (trace flavor)) := by
  simp [tuple]

@[simp]
theorem trace_operand (node : Scalar) (script : Script) :
    trace flavor (operand node script) = trace flavor script := by
  cases bracketed : node.needsBrackets <;> simp [operand, bracketed]

/-- Line breaks and brackets leave no trace. -/
@[simp]
theorem trace_nested (query : Script) : trace flavor (nested query) = trace flavor query := by
  simp [nested]

@[simp]
theorem trace_clause (head : String) (script : Script) :
    trace flavor (clause head script) = trace flavor script := by
  simp [clause]

@[simp]
theorem trace_optionalClause (head : String) (content : Option Script) :
    trace flavor (optionalClause head content) = (content.map (trace flavor)).getD ∅ := by
  simp only [optionalClause, trace_optional, trace_clause]

@[simp]
theorem trace_listClause (head : String) (entries : List Script) :
    trace flavor (listClause head entries) = Trace.join (entries.map (trace flavor)) := by
  cases entries <;> simp [listClause, Trace.join]

@[simp]
theorem trace_selection (columns : List Script) :
    trace flavor (selection columns) = Trace.join (columns.map (trace flavor)) := by
  cases columns <;> simp [selection, Trace.join]

@[simp]
theorem trace_aggregated (operand : Option Script) :
    trace flavor (aggregated operand) = (operand.map (trace flavor)).getD ∅ := by
  cases operand <;> simp [aggregated]

@[simp]
theorem trace_tableName (t : Table) : trace flavor (tableName t) = ∅ := by
  simp [tableName]

@[simp]
theorem trace_table (t : Table) : trace flavor (table t) = ∅ := by
  simp [table]

@[simp]
theorem trace_column (c : Column) : trace flavor (column c) = ∅ := by
  simp [column]

@[simp]
theorem trace_columnNames (columns : List Column) : trace flavor (columnNames columns) = ∅ := by
  simpa [columnNames, Function.comp_def] using Trace.join_map_empty columns

@[simp]
theorem trace_settings (row : List Setting) :
    trace flavor (settings row) = Trace.join (row.map fun s => trace flavor s.value) := by
  simp [settings, Function.comp_def, setting]

@[simp]
theorem trace_rowValues (row : List Setting) :
    trace flavor (rowValues row) = Trace.join (row.map fun s => trace flavor s.value) := by
  simp [rowValues, Function.comp_def]

@[simp]
theorem trace_insertHead (t : Table) (columns : List Column) :
    trace flavor (insertHead t columns) = ∅ := by
  simp [insertHead]

@[simp]
theorem trace_insertRow (t : Table) (row : List Setting) :
    trace flavor (insertRow t row) = Trace.join (row.map fun s => trace flavor s.value) := by
  simp [insertRow]

@[simp]
theorem trace_insertRows (t : Table) (rows : List (List Setting)) :
    trace flavor (insertRows t rows) =
      Trace.join (rows.map fun row => Trace.join (row.map fun s => trace flavor s.value)) := by
  simp [insertRows, Function.comp_def]

@[simp]
theorem trace_duplicateKeyClause (updates : List Setting) :
    trace flavor (duplicateKeyClause updates) =
      Trace.join (updates.map fun s => trace flavor s.value) := by
  cases updates <;> simp [duplicateKeyClause, Trace.join]

/-- Without conflict columns the updates are not written. -/
theorem trace_conflictClause (conflict : List Column) (updates : List Setting) :
    trace flavor (conflictClause conflict updates) =
      if conflict.isEmpty then ∅ else Trace.join (updates.map fun s => trace flavor s.value) := by
  cases conflict <;> cases updates <;> simp [conflictClause, Trace.join]

end Script

end SqlTree
