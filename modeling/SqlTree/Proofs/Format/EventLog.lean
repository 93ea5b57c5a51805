import SqlTree.Proofs.Format.Failure

/-!
# The log of a format

What a formatter reports comes from several places: the handing over of an extension node, the
checks of two such nodes, and the end of a format that succeeds. The log as a whole can be read off
the statement. Its extension nodes are reported in the order of the text, each one ahead of those
inside it, up to the first with which something is wrong; then comes either the summary of the
result, or a warning if that node has not passed its own check.
-/

namespace SqlTree

/-- A line of a log: the level, the message and the fields of an event. -/
abbrev LogLine := Level × String × List (String × String)

def Event.line (event : Event) : LogLine :=
  (event.level, event.message, event.fields)

def Formatter.log (f : Formatter) : List LogLine :=
  f.events.toList.map Event.line

/-- The line that says that an extension node is handed to the dialect. -/
def Flavor.routingLine (flavor : Flavor) (node : Extension) : LogLine :=
  (.trace, "routing extension node to dialect", [("dialect", flavor.name), ("kind", node.kind)])

/-- The line that sums up the result of a format. -/
def Flavor.summaryLine (flavor : Flavor) (statement : Statement) (formatted : Formatted) :
    LogLine :=
  (.debug, "formatted expression",
    [("dialect", flavor.name), ("kind", statement.kind),
      ("sql_len", toString formatted.sql.utf8ByteSize),
      ("parameters", toString formatted.parameters.length)])

/-- The line that says why something about a table is not written. -/
def warningLine (message : String) (into : Table) (error : Error) : LogLine :=
  (.warn, message, [("table", into.name), ("error", error.message)])

section Remarks

variable (flavor : Flavor)

def Flavor.routing (node : Extension) : Event :=
  .routed flavor.name node.kind

/-- Nodes with which nothing is wrong are announced one after the other. -/
theorem Flavor.trace_passed {passed : List Extension}
    (fine : ∀ node ∈ passed, flavor.offence node = none) :
    Action.traceAll (passed.flatMap flavor.remarks) = { events := passed.map flavor.routing } := by
  induction passed with
  | nil => rfl
  | cons node rest ih =>
    obtain ⟨own, others⟩ := List.forall_mem_cons.mp fine
    rw [List.flatMap_cons, Action.traceAll_append, flavor.trace_remarks, own, ih others]
    rfl

/-- Behind a node that is given up nothing is reported. -/
theorem Flavor.trace_stopped {passed rest : List Extension} {node : Extension} {error : Error}
    (fine : ∀ other ∈ passed, flavor.offence other = none)
    (wrong : flavor.offence node = some error) :
    Action.traceAll ((passed ++ node :: rest).flatMap flavor.remarks) =
      { events := (passed ++ [node]).map flavor.routing ++ node.complaint error
        error := some error } := by
  have own := flavor.trace_remarks node
  rw [wrong] at own
  have stopped := congrArg Trace.error own
  rw [List.flatMap_append, List.flatMap_cons, Action.traceAll_append, Action.traceAll_append,
    Trace.append_of_stopped stopped, flavor.trace_passed fine, own, Trace.append_of_going rfl,
    List.map_append, List.append_assoc]
  rfl

/-- The events of a statement's script, whether it succeeds or not. -/
theorem Tree.events_script (options : FormatOptions) (statement : Statement) :
    (Formatter.perform {} flavor.dialect options
        (Script.run flavor.dialect statement.script)).2.events.toList =
      (Action.traceAll (statement.extensionNodes.flatMap flavor.remarks)).events := by
  have neutral : Script.DepthNeutral flavor statement.script := statement.depthNeutral_script flavor
  have traced : Script.trace flavor statement.script =
      Action.traceAll (statement.signals flavor) := statement.trace_script flavor
  have silent := congrArg Trace.events (statement.silent_signals flavor)
  rw [neutral.events, traced, ← silent]
  rfl

end Remarks

/-- The first node that offends comes behind nodes with which nothing is wrong. -/
theorem Tree.extensionNodes_of_offending {flavor : Flavor} {statement : Statement}
    {node : Extension} {more : List Extension}
    (first : statement.offending flavor = node :: more) :
    ∃ passed rest, statement.extensionNodes = passed ++ node :: rest ∧
      ∀ other ∈ passed, flavor.offence other = none := by
  obtain ⟨passed, rest, split, fine, -, -⟩ := List.filter_eq_cons_iff.mp first
  refine ⟨passed, rest, split, fun other member => ?_⟩
  exact Option.not_isSome_iff_eq_none.mp (fine other member)

/-! ## Ends of a format -/

section Ends

variable {flavor : Flavor} {options : FormatOptions} {statement : Statement} {final : Formatter}

/-- A format writes the script of the statement and, if that succeeds, reports the result. -/
theorem formatWithState_eq (flavor : Flavor) (options : FormatOptions) (statement : Statement) :
    formatWithState flavor.dialect options statement =
      Outcome.andThen
        (Formatter.perform {} flavor.dialect options (Script.run flavor.dialect statement.script))
        fun _ f =>
          (.ok f.result,
            { f with
              events := f.events.push (.formatted flavor.name statement.kind
                f.result.sql.utf8ByteSize f.result.parameters.length) }) := by
  rw [formatWithState, Formatter.formatStatement, Formatter.perform_bind]
  rfl

/-- A format that succeeds has announced all extension nodes, and then its result. -/
theorem events_of_ok {formatted : Formatted}
    (ended : formatWithState flavor.dialect options statement = (.ok formatted, final)) :
    final.events.toList =
      statement.extensionNodes.map flavor.routing ++
        [.formatted flavor.name statement.kind formatted.sql.utf8ByteSize
          formatted.parameters.length] := by
  have success : format flavor.dialect options statement = .ok formatted :=
    congrArg Prod.fst ended
  have fine : ∀ node ∈ statement.extensionNodes, flavor.offence node = none := by
    have none := (format_succeeds_iff flavor options statement).mp ⟨formatted, success⟩
    intro node member
    exact Option.not_isSome_iff_eq_none.mp (List.filter_eq_nil_iff.mp none node member)
  have events := statement.events_script flavor options
  rw [flavor.trace_passed fine] at events
  rw [formatWithState_eq] at ended
  obtain ⟨_, f, ran, rest⟩ := Outcome.andThen_eq_ok ended
  rw [ran] at events
  cases rest
  rw [Array.toList_push]
  exact congrArg (· ++ _) events

/-- A format that fails has announced the nodes up to the one that it fails at, and has complained
about that one if it was rejected. -/
theorem events_of_error {error : Error}
    (ended : formatWithState flavor.dialect options statement = (.error error, final)) :
    ∃ passed node rest, statement.extensionNodes = passed ++ node :: rest ∧
      (∀ other ∈ passed, flavor.offence other = none) ∧ flavor.offence node = some error ∧
      final.events.toList = (passed ++ [node]).map flavor.routing ++ node.complaint error := by
  have failed : format flavor.dialect options statement = .error error := congrArg Prod.fst ended
  obtain ⟨node, more, first, wrong⟩ :=
    (format_eq_error_iff flavor options statement error).mp failed
  obtain ⟨passed, rest, split, fine⟩ := Tree.extensionNodes_of_offending first
  have events := statement.events_script flavor options
  rw [split, flavor.trace_stopped fine wrong] at events
  refine ⟨passed, node, rest, split, fine, wrong, ?_⟩
  rw [formatWithState_eq] at ended
  rcases ran : Formatter.perform {} flavor.dialect options
    (Script.run flavor.dialect statement.script) with ⟨stopped | _, f⟩
  · rw [ran] at ended events
    cases ended
    exact events
  · rw [ran] at ended
    cases ended

end Ends

/-- A complaint is one warning that names the table, and is made about nodes that a check has
rejected. -/
theorem Flavor.complaint_cases {flavor : Flavor} {node : Extension} {error : Error}
    (wrong : flavor.offence node = some error) :
    (∃ id into rows fault, node = .bulkInsert id into rows ∧
        error = .malformedBulkInsert fault ∧
        (node.complaint error).map Event.line =
          [warningLine "rejecting bulk insert" into.value error]) ∨
      (∃ id into row conflict updates, node = .conflictUpsert id into row conflict updates ∧
        error = .missingConflictTarget into.value.name ∧
        (node.complaint error).map Event.line =
          [warningLine "rejecting upsert" into.value error]) ∨
      error = .unsupportedNode node.kind ∧ (node.complaint error).map Event.line = [] := by
  obtain ⟨id, into, rows, fault, rfl, rfl⟩ | ⟨id, into, row, conflict, updates, rfl, rfl⟩ | rfl :=
    flavor.offence_nodes wrong
  · exact .inl ⟨id, into, rows, fault, rfl, rfl, rfl⟩
  · exact .inr (.inl ⟨id, into, row, conflict, updates, rfl, rfl, rfl⟩)
  · refine .inr (.inr ⟨rfl, ?_⟩)
    cases node <;> rfl

/-- **The log follows the run.** A format that succeeds has logged one line for each extension node
of the statement, in the order of the text and each node ahead of those inside it, and then the
summary of the result. A format that fails has logged the nodes up to the one that it failed at, and
then one warning with the name of the table and the error, if that is a bulk insert or an upsert
that was rejected, and nothing more if the flavor does not support the node. -/
theorem format_logs_run (flavor : Flavor) (options : FormatOptions) (statement : Statement) :
    (∀ formatted final,
      formatWithState flavor.dialect options statement = (.ok formatted, final) →
        final.log =
          statement.extensionNodes.map flavor.routingLine ++
            [flavor.summaryLine statement formatted]) ∧
      ∀ error final, formatWithState flavor.dialect options statement = (.error error, final) →
        ∃ passed node rest warnings,
          statement.extensionNodes = passed ++ node :: rest ∧
            (∀ other ∈ passed, flavor.offence other = none) ∧
            flavor.offence node = some error ∧
            final.log = (passed ++ [node]).map flavor.routingLine ++ warnings ∧
            ((∃ id into rows fault, node = .bulkInsert id into rows ∧
                error = .malformedBulkInsert fault ∧
                warnings = [warningLine "rejecting bulk insert" into.value error]) ∨
              (∃ id into row conflict updates, node = .conflictUpsert id into row conflict updates ∧
                error = .missingConflictTarget into.value.name ∧
                warnings = [warningLine "rejecting upsert" into.value error]) ∨
              error = .unsupportedNode node.kind ∧ warnings = []) := by
  refine ⟨fun formatted final ended => ?_, fun error final ended => ?_⟩
  · rw [Formatter.log, events_of_ok ended, List.map_append, List.map_map]
    rfl
  · obtain ⟨passed, node, rest, split, fine, wrong, events⟩ := events_of_error ended
    refine ⟨passed, node, rest, (node.complaint error).map Event.line, split, fine, wrong, ?_,
      Flavor.complaint_cases wrong⟩
    rw [Formatter.log, events, List.map_append, List.map_map]
    rfl

def shopSearch (shops : Source) : Statement :=
  let books : Source := .table ⟨0, { name := "bücher" }⟩
  let title : Scalar := .column ⟨1, { name := "title", type := .text }⟩
  .queryStatement
    (.select 2 .nil (.sourceExtension (.naturalJoin 3 books shops))
      (.present (.scalarExtension (.matchAgainst 4 (.cons title .nil) "lean" none)))
      .nil .absent false .nil {})

/-- With a bulk insert in the place of the shops, that one is announced behind the join around it
and then rejected, and the full text search behind it is never handed to the dialect. -/
theorem format_logs_run_shopSearch :
    let shops : Source := .table ⟨5, { name := "shop" }⟩
    let rows : Source := .sourceExtension (.bulkInsert 5 ⟨6, { name := "shop" }⟩ .nil)
    let routing (kind : String) : LogLine :=
      (.trace, "routing extension node to dialect", [("dialect", "mysql"), ("kind", kind)])
    (formatWithState Flavor.mysql.dialect {} (shopSearch shops)).2.log =
        [routing "natural_join", routing "match_against",
          (.debug, "formatted expression", [("dialect", "mysql"), ("kind", "select"),
            ("sql_len", "77"), ("parameters", "1")])] ∧
      (formatWithState Flavor.mysql.dialect {} (shopSearch rows)).2.log =
        [routing "natural_join", routing "bulk_insert",
          (.warn, "rejecting bulk insert", [("table", "shop"),
            ("error", "malformed bulk insert: no rows to insert into 'shop'")])] := by
  intro shops rows routing
  have success : format Flavor.mysql.dialect {} (shopSearch shops) = .ok
      { sql := "SELECT * FROM \x60bücher\x60 NATURAL JOIN \x60shop\x60 "
          ++ "WHERE MATCH (\x60title\x60) AGAINST (?)"
        parameters := [{ value := .text "lean", type := .varchar none }] } :=
    format_eq_ok (by decide +kernel)
  have failure : format Flavor.mysql.dialect {} (shopSearch rows) =
      .error (.malformedBulkInsert (.noRows "shop")) := format_eq_error_of_failures rfl {}
  have logged := (format_logs_run .mysql {} (shopSearch shops)).1 _
    (formatWithState Flavor.mysql.dialect {} (shopSearch shops)).2 (Prod.ext success rfl)
  obtain ⟨passed, node, rest, warnings, split, fine, wrong, stopped, kind⟩ :=
    (format_logs_run .mysql {} (shopSearch rows)).2 _
      (formatWithState Flavor.mysql.dialect {} (shopSearch rows)).2 (Prod.ext failure rfl)
  rw [logged, stopped]
  refine ⟨by decide +kernel, ?_⟩
  -- The node that the format failed at is neither the join ahead of the bulk insert nor behind it.
  cases passed with
  | nil =>
    cases split
    cases wrong
  | cons join more =>
    cases more with
    | nil =>
      cases split
      obtain ⟨_, _, _, _, same, -, rfl⟩ | ⟨_, _, _, _, _, same, -⟩ | ⟨same, -⟩ := kind
      · cases same
        decide +kernel
      · cases same
      · cases same
    | cons bulk more =>
      have second : some (.bulkInsert 5 ⟨6, { name := "shop" }⟩ .nil) = some bulk :=
        congrArg (·[1]?) split
      cases second
      cases fine _ (List.mem_cons_of_mem _ List.mem_cons_self)

end SqlTree
