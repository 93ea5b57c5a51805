import SqlTree.Proofs.Format.AppendOnly
import SqlTree.Proofs.Script.Alignment

/-!
# Writer runs

Whoever writes with a formatter step by step may mix its operations in any order, and go on after
one of them has failed halfway. Whatever is done, every placeholder that stands outside quoted names
has its parameter: what an operation has written when it stops is as good as what it would have
written in full.
-/

namespace SqlTree

open Masking

/-! ## Operations -/

def Subject.spelledNames : Subject → List String
  | .statement tree => tree.spelledNames
  | .scalar tree => tree.spelledNames
  | .source tree => tree.spelledNames
  | .query tree => tree.spelledNames

inductive Operation where
  | write (text : String)
  | writeKeyword (text : String)
  | dropBlank
  | newLine (shift : Shift)
  | placeholder (argument : Argument)
  | identifier (name : String)
  | tableName (table : Table)
  | columnNames (columns : List Column)
  /-- Values in brackets. -/
  | values (members : Tree (.list .scalar))
  /-- Expressions with commas between them. -/
  | expressions (members : Tree (.list .scalar))
  /-- Assignments with commas between them. -/
  | assignments (row : Tree (.list .assignment))
  | operand (scalar : Scalar)
  /-- A query in brackets. -/
  | nested (query : Query)
  | visit (subject : Subject)
  | visitOrder (order : Order)
  /-- An extension node that is handed to the dialect. -/
  | visitExtension (node : Extension)
  /-- Expressions one behind the other. -/
  | visitExpressions (members : Tree (.list .scalar))
  | visitOrders (members : Tree (.list .order))
  | visitAssignments (row : Tree (.list .assignment))
  /-- An extension node in its usual form, whoever owns it. -/
  | extension (node : Extension)
  /-- The page of a query in the way of a flavor, which need not be that of the formatter. -/
  | page (way : Flavor) (query : Query)

namespace Operation

def run (dialect : Dialect) : Operation → FormatM Unit
  | .write text => Formatter.write text
  | .writeKeyword text => Formatter.writeKeyword text
  | .dropBlank => Formatter.dropBlank
  | .newLine shift => Formatter.newLine shift
  | .placeholder argument => Formatter.writePlaceholder argument
  | .identifier name => Script.run dialect (Script.identifier name)
  | .tableName table => Script.run dialect (Script.tableName table)
  | .columnNames columns => Script.run dialect (Script.columnNames columns)
  | .values members => Script.run dialect (Script.tuple members.script)
  | .expressions members => Script.run dialect (Script.separated members.script)
  | .assignments row => Script.run dialect (Script.settings row.script)
  | .operand scalar => Script.run dialect (Script.operand scalar scalar.script)
  | .nested query => Script.run dialect (Script.nested query.script)
  | .visit subject => subject.write dialect
  | .visitOrder order => Script.run dialect order.script
  | .visitExtension node => Script.run dialect [.extension node node.script]
  | .visitExpressions members => Script.run dialect (List.flatten members.script)
  | .visitOrders members => Script.run dialect (List.flatten members.script)
  | .visitAssignments row => Script.run dialect (Script.settingsInSequence row.script)
  | .extension node => Script.run dialect node.script
  | .page way query => way.writePage query

/-- What an operation leaves behind, whether it succeeds or fails. -/
def after (flavor : Flavor) (options : FormatOptions) (f : Formatter) (operation : Operation) :
    Formatter :=
  (f.perform flavor.dialect options (operation.run flavor.dialect)).2

/-- What a fresh formatter has come to after some operations. -/
def afterAll (flavor : Flavor) (options : FormatOptions) (operations : List Operation) :
    Formatter :=
  operations.foldl (after flavor options) {}

/-- The texts that an operation writes as they are. -/
def spelled : Operation → List String
  | .write text => [text]
  | .writeKeyword text => [text]
  | .values members => members.spelledNames
  | .expressions members => members.spelledNames
  | .assignments row => row.spelledNames
  | .operand scalar => scalar.spelledNames
  | .nested query => query.spelledNames
  | .visit subject => subject.spelledNames
  | .visitOrder order => order.spelledNames
  | .visitExtension node => node.spelledNames
  | .visitExpressions members => members.spelledNames
  | .visitOrders members => members.spelledNames
  | .visitAssignments row => row.spelledNames
  | .extension node => node.spelledNames
  | _ => []

end Operation

/-! ## Runs -/

/-- One operation keeps placeholders and parameters together, whether it succeeds or fails. -/
theorem Operation.aligned_after {flavor : Flavor} {options : FormatOptions} {operation : Operation}
    (markFree : ∀ text ∈ operation.spelled, MarkFree flavor.quote text) {f : Formatter}
    (aligned : f.Aligned flavor.quote) :
    (operation.after flavor options f).Aligned flavor.quote := by
  have inherited := Script.inherited_writesMarkFree flavor
  have runs {script : Script} (writesFree : Script.WritesMarkFree flavor script) :
      (f.perform flavor.dialect options (Script.run flavor.dialect script)).2.Aligned
        flavor.quote := writesFree.aligned aligned
  have acts (action : Action) (markFree : action.MarkFree flavor.quote) :
      (action.apply (flavor.dialect.style options) f).2.Aligned flavor.quote :=
    action.aligned_apply markFree aligned
  rw [after]
  cases operation with
  | write text => exact acts (.write text) (markFree text (List.mem_singleton_self text))
  | writeKeyword text =>
    exact acts (.write (text ++ " ")) (markFree text (List.mem_singleton_self text)).keyword
  | dropBlank => exact acts .dropBlank trivial
  | newLine shift =>
    rw [run, perform_newLine]
    exact acts (.newLine shift) trivial
  | placeholder argument => exact acts (.placeholder argument) trivial
  | identifier name => exact runs (inherited.name name)
  | tableName table => exact runs (inherited.tableName table)
  | columnNames columns => exact runs (inherited.columnNames columns)
  | values members => exact runs (inherited.tuple (members.scriptsAll inherited markFree))
  | expressions members => exact runs (inherited.separated (members.scriptsAll inherited markFree))
  | assignments row => exact runs (inherited.settings (row.scriptsAll inherited markFree))
  | operand scalar => exact runs (inherited.operand scalar (scalar.scriptsAll inherited markFree))
  | nested query => exact runs (inherited.nested (query.scriptsAll inherited markFree))
  | visit subject =>
    cases subject with
    | statement tree => exact runs (tree.scriptsAll inherited markFree)
    | scalar tree => exact runs (tree.scriptsAll inherited markFree)
    | source tree => exact runs (tree.scriptsAll inherited markFree)
    | query tree => exact runs (tree.scriptsAll inherited markFree)
  | visitOrder order => exact runs (order.scriptsAll inherited markFree)
  | visitExtension node =>
    exact runs (inherited.extension node (node.scriptsAll inherited markFree))
  | visitExpressions members =>
    exact runs (inherited.flatten (members.scriptsAll inherited markFree))
  | visitOrders members => exact runs (inherited.flatten (members.scriptsAll inherited markFree))
  | visitAssignments row =>
    exact runs (inherited.settingsInSequence (row.scriptsAll inherited markFree))
  | extension node => exact runs (node.scriptsAll inherited markFree)
  | page way query =>
    rw [run, perform_page]
    exact Action.aligned_exec (Script.markFree_pageActions way query.page) aligned

/-- A run of operations does so from any state in which nothing is missing. -/
theorem Operation.aligned_foldl {flavor : Flavor} {options : FormatOptions}
    {operations : List Operation}
    (markFree : ∀ operation ∈ operations, ∀ text ∈ operation.spelled, MarkFree flavor.quote text)
    {f : Formatter} (aligned : f.Aligned flavor.quote) :
    (operations.foldl (after flavor options) f).Aligned flavor.quote := by
  induction operations generalizing f with
  | nil => exact aligned
  | cons operation rest ih =>
    have step : (operation.after flavor options f).Aligned flavor.quote :=
      aligned_after (markFree operation List.mem_cons_self) aligned
    exact ih (fun operation member => markFree operation (List.mem_cons_of_mem _ member)) step

/-- However the operations of a formatter are mixed, and whichever of them fail, the text has an
even number of quotes, and outside of names as many placeholders as parameters have been collected.
Only texts that are written as they are must have neither quotes nor question marks: names in quotes
are arbitrary. -/
theorem placeholders_eq_parameters (flavor : Flavor) (options : FormatOptions)
    (operations : List Operation)
    (markFree : ∀ operation ∈ operations, ∀ text ∈ operation.spelled,
      '?' ∉ text.toList ∧ flavor.quote ∉ text.toList) :
    let f := Operation.afterAll flavor options operations
    f.sql.toList.count flavor.quote % 2 = 0 ∧
      placeholders flavor.quote f.sql.toList = f.parameters.size := by
  intro f
  have aligned : f.Aligned flavor.quote :=
    Operation.aligned_foldl markFree (Formatter.aligned_fresh flavor.quote)
  rw [Formatter.sql, Buffer.text, String.toList_ofList]
  exact ⟨ended_iff_even.mp aligned.ended, aligned.counted⟩

/-- A run in which two operations fail, one of them behind a placeholder, and two names touch. -/
def brokenRun : List Operation :=
  let bound : Scalar := .argument ⟨0, ⟨.text "?", .text⟩⟩
  let lower : Scalar := .call 1 "lower" (.cons bound .nil) .text
  let unknown : Scalar := .scalarExtension (.foreign 2 { kind := "window" })
  let books : Query :=
    .select 3 .nil (.table ⟨4, { name := "book" }⟩) .absent .nil .absent false .nil {}
  [.newLine .outer, .writeKeyword "SELECT", .identifier "a?\"b", .dropBlank, .identifier "?",
    .values (.cons lower (.cons unknown .nil)), .page .mysql books]

theorem placeholders_eq_parameters_brokenRun :
    let f := Operation.afterAll .postgresql {} brokenRun
    (∀ operation ∈ brokenRun, ∀ text ∈ operation.spelled,
        '?' ∉ text.toList ∧ '"' ∉ text.toList) ∧
      f.sql = "SELECT \"a?\"\"b\"\"?\" (lower(?), LIMIT ?, ? " ∧ f.parameters.size = 3 ∧
      f.sql.toList.count '"' % 2 = 0 ∧ placeholders '"' f.sql.toList = f.parameters.size := by
  have markFree : ∀ operation ∈ brokenRun, ∀ text ∈ operation.spelled,
      '?' ∉ text.toList ∧ '"' ∉ text.toList := by
    intro operation member text spelled
    have texts : brokenRun.flatMap Operation.spelled = ["SELECT", "lower"] := rfl
    have found : text ∈ ["SELECT", "lower"] :=
      texts ▸ List.mem_flatMap.mpr ⟨operation, member, spelled⟩
    rcases List.mem_cons.mp found with rfl | last
    · decide
    · obtain rfl := List.mem_singleton.mp last
      decide
  exact ⟨markFree, by decide +kernel, by decide +kernel,
    placeholders_eq_parameters .postgresql {} brokenRun markFree⟩

end SqlTree
