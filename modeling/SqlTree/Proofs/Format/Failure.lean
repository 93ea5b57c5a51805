import SqlTree.Proofs.Format.CompactText
import SqlTree.Proofs.Format.ParameterOrder
import SqlTree.Proofs.Format.Success

/-!
# What formatting returns

Only extension nodes make formatting fail: those that the flavor does not own, and those that do not
pass their own check. `Flavor.offence` says what is wrong with such a node, without a formatter. A
statement is formatted if nothing in it offends, to the text and the parameters that the tree has by
itself; otherwise the error is that of the first node that offends, in the order of the text.
-/

namespace SqlTree

/-! ## Offending nodes -/

def refusal : Except Error Unit → Option Error
  | .ok () => none
  | .error error => some error

/-- What is wrong with an extension node in a flavor, if anything is. Flavors own nodes by what they
are and not by the names of their kinds, which the two upserts share. -/
def Flavor.offence : Flavor → Extension → Option Error
  | .mysql, .duplicateKeyUpsert .. => none
  | .mysql, .bulkInsert id into rows => refusal (Tree.bulkInsert id into rows).validate
  | .mysql, .naturalJoin .. => none
  | .mysql, .matchAgainst .. => none
  | .postgresql, .ilike .. => none
  | .postgresql, .conflictUpsert _ into _ conflict updates =>
    if conflict = [] ∧ updates.toList ≠ [] then some (.missingConflictTarget into.value.name)
    else none
  | _, node => some (.unsupportedNode node.kind)

/-- The extension nodes of a tree with which something is wrong, in the order of its text and each
one ahead of those inside it. -/
def Tree.offending (flavor : Flavor) {c : Category} (tree : Tree c) : List Extension :=
  tree.extensionNodes.filter fun node => (flavor.offence node).isSome

section Offences

variable (flavor : Flavor)

/-- A node of another flavor is refused before its own check is made. -/
theorem Flavor.offence_of_not_owned {node : Extension} (other : flavor.owns node = false) :
    flavor.offence node = some (.unsupportedNode node.kind) := by
  cases flavor with
  | generic => cases node <;> rfl
  | mysql =>
    cases node with
    | duplicateKeyUpsert | bulkInsert | naturalJoin | matchAgainst => cases other
    | ilike | conflictUpsert | foreign => rfl
  | postgresql =>
    cases node with
    | ilike | conflictUpsert => cases other
    | duplicateKeyUpsert | bulkInsert | naturalJoin | matchAgainst | foreign => rfl

/-- Something is wrong with a bulk insert or an upsert that does not pass its check, and with a node
that the flavor does not own. -/
theorem Flavor.offence_nodes {node : Extension} {error : Error}
    (wrong : flavor.offence node = some error) :
    (∃ id into rows fault, node = .bulkInsert id into rows ∧ error = .malformedBulkInsert fault) ∨
      (∃ id into row conflict updates, node = .conflictUpsert id into row conflict updates ∧
        error = .missingConflictTarget into.value.name) ∨
      error = .unsupportedNode node.kind := by
  unfold offence at wrong
  split at wrong
  · cases wrong
  · next id into rows =>
    rw [Tree.validate, validateBulkInsert] at wrong
    split at wrong
    · cases wrong
      exact .inl ⟨id, into, rows, _, rfl, rfl⟩
    · cases wrong
  · cases wrong
  · cases wrong
  · cases wrong
  · next id into row conflict updates =>
    split at wrong
    · cases wrong
      exact .inr (.inl ⟨id, into, row, conflict, updates, rfl, rfl⟩)
    · cases wrong
  · cases wrong
    exact .inr (.inr rfl)

/-- No flavor ever finds a node changed or a line break out of place. -/
theorem Flavor.offence_cases {node : Extension} {error : Error}
    (wrong : flavor.offence node = some error) :
    error = .unsupportedNode node.kind ∨ (∃ fault, error = .malformedBulkInsert fault) ∨
      ∃ table, error = .missingConflictTarget table := by
  obtain ⟨_, _, _, fault, -, same⟩ | ⟨_, into, _, _, _, -, same⟩ | same :=
    flavor.offence_nodes wrong
  · exact .inr (.inl ⟨fault, same⟩)
  · exact .inr (.inr ⟨into.value.name, same⟩)
  · exact .inl same

/-- An upsert that does nothing on a conflict may leave the columns out. -/
theorem refusal_validateConflictTarget (into : Table) (conflict : List (Node Column))
    (updates : Tree (.list .assignment)) :
    refusal (validateConflictTarget into conflict updates) =
      if conflict = [] ∧ updates.toList ≠ [] then some (.missingConflictTarget into.name)
      else none := by
  rw [validateConflictTarget]
  cases conflict <;> cases updates.toList <;> rfl

/-! ## What extension nodes make a flavor say -/

/-- What is reported about a node that does not pass its own check. -/
def Tree.complaint : Extension → Error → List Event
  | .bulkInsert _ into _, .malformedBulkInsert fault =>
    [.rejectedBulkInsert into.value.name (.malformedBulkInsert fault)]
  | .conflictUpsert _ into _ _ _, .missingConflictTarget name =>
    [.rejectedUpsert into.value.name (.missingConflictTarget name)]
  | _, _ => []

/-- What follows from an extension node with which something is wrong. -/
def Flavor.verdict (node : Extension) : List Action :=
  (flavor.offence node).elim [] fun error => (node.complaint error).map .report ++ [.fail error]

/-- An extension node is announced, and then given up if something is wrong with it. -/
def Flavor.remarks (node : Extension) : List Action :=
  .report (.routed flavor.name node.kind) :: flavor.verdict node

/-- An extension node is always announced; behind that stands what is wrong with it, if anything is.
-/
theorem Flavor.trace_remarks (node : Extension) :
    Action.traceAll (flavor.remarks node) =
      { events := .routed flavor.name node.kind :: (flavor.offence node).elim [] node.complaint
        error := flavor.offence node } := by
  rw [remarks, verdict]
  cases flavor.offence node with
  | none => rfl
  | some error =>
    rw [Option.elim_some, Action.traceAll, Action.traceAll_append, Action.traceAll_reports]
    exact congrArg (Trace.mk [] · _) (congrArg (_ :: ·) (List.append_nil _))

/-- The remarks on some nodes stop at the first one with which something is wrong. -/
theorem Flavor.error_remarks (nodes : List Extension) :
    (Action.traceAll (nodes.flatMap flavor.remarks)).error =
      (nodes.filterMap flavor.offence).head? := by
  induction nodes with
  | nil => rfl
  | cons node rest ih =>
    have own := congrArg Trace.error (flavor.trace_remarks node)
    rw [List.flatMap_cons, Action.traceAll_append]
    cases wrong : flavor.offence node with
    | none =>
      rw [Trace.append_of_going (own.trans wrong), List.filterMap_cons_none wrong]
      exact ih
    | some error =>
      rw [Trace.append_of_stopped (own.trans wrong), List.filterMap_cons_some wrong]
      exact own.trans wrong

/-- A node that the flavor owns is given up ahead of its parts, if something is wrong with it, and
otherwise only binds parameters. -/
theorem Form.signals_extension {s : Slot} (form : Form .extension s) (id : NodeId)
    (parts : s.Part) (owned : flavor.owns (form.build id parts) = true) :
    (form.build id parts).entrySignals flavor = flavor.verdict (form.build id parts) ∧
      (Action.traceAll (form.build id parts).exitSignals).silent = ∅ := by
  cases form with
  | bulkInsert =>
    cases flavor with
    | mysql =>
      obtain ⟨into, rows⟩ := parts
      refine ⟨?_, rfl⟩
      have checked : Flavor.mysql.offence (.bulkInsert id into rows) =
          refusal (validateBulkInsert into.value rows) := rfl
      rw [Flavor.verdict, build, checked, Tree.entrySignals, validateBulkInsert]
      cases bulkFault into.value.name (rows.toList.map Tree.targetNames) <;> rfl
    | generic | postgresql => cases owned
  | conflictUpsert =>
    cases flavor with
    | postgresql =>
      obtain ⟨⟨⟨into, row⟩, conflict⟩, updates⟩ := parts
      refine ⟨?_, rfl⟩
      have checked : Flavor.postgresql.offence (.conflictUpsert id into row conflict updates) =
          refusal (validateConflictTarget into.value conflict updates) :=
        (refusal_validateConflictTarget into.value conflict updates).symm
      rw [Flavor.verdict, build, checked, Tree.entrySignals, validateConflictTarget]
      cases conflict.isEmpty && !updates.toList.isEmpty <;> rfl
    | generic | mysql => cases owned
  | duplicateKeyUpsert | naturalJoin | matchAgainst =>
    cases flavor with
    | mysql => exact ⟨rfl, rfl⟩
    | generic | postgresql => cases owned
  | ilike =>
    cases flavor with
    | postgresql => exact ⟨rfl, rfl⟩
    | generic | mysql => cases owned
  | foreign => cases owned

/-- A node of another category only binds parameters. -/
theorem Form.signals_base {c : Category} {s : Slot} (form : Form c s) (id : NodeId)
    (parts : s.Part) (base : c ≠ .extension) :
    (form.build id parts).entrySignals flavor = [] ∧
      (Action.traceAll (form.build id parts).exitSignals).silent = ∅ := by
  have bindings (page : Page) : (Action.traceAll page.bindings).silent = ∅ := by
    rw [Page.bindings]
    split <;> rfl
  cases form with
  | select distinct page => exact ⟨rfl, bindings page⟩
  | union all page => exact ⟨rfl, bindings page⟩
  | duplicateKeyUpsert | bulkInsert | naturalJoin | matchAgainst | ilike | conflictUpsert
  | foreign => exact absurd rfl base
  | _ => exact ⟨rfl, rfl⟩

/-- Whether every extension node in a tree of a category is handed to the dialect by what it stands
for. -/
def Category.routes : Category → Bool
  | .extension => false
  | .list c => c.routes
  | .option c => c.routes
  | _ => true

/-- An extension node that stands by itself has already passed the dialect. -/
def Slot.Admitted : (s : Slot) → s.Part → Prop
  | .tree .extension, node => flavor.owns node = true
  | .tree c, _ => c.routes = true
  | .pair s t, parts => s.Admitted parts.1 ∧ t.Admitted parts.2
  | _, _ => True

theorem Slot.admitted_tree {c : Category} (routed : c.routes = true) (tree : Tree c) :
    (Slot.tree c).Admitted flavor tree := by
  cases c with
  | extension => cases routed
  | _ => exact routed

/-- No node has an extension node as an immediate part: it is always wrapped as a scalar or source.
-/
theorem Form.admitted_parts {c : Category} {s : Slot} (form : Form c s) (parts : s.Part) :
    s.Admitted flavor parts := by
  cases form with
  | foreign => trivial
  | _ => simp [Slot.Admitted, Category.routes]

/-- The signals of the parts of a node, where an extension node that stands by itself is announced
like any other. -/
def Slot.announced : (s : Slot) → s.Part → List Action
  | .tree .extension, node => .report (.routed flavor.name node.kind) :: node.signals flavor
  | .pair s t, parts => s.announced parts.1 ++ t.announced parts.2
  | s, parts => s.collect flavor.signals parts

theorem Slot.announced_base {c : Category} (base : c ≠ .extension) (tree : Tree c) :
    (Slot.tree c).announced flavor tree = tree.signals flavor := by
  cases c with
  | extension => exact absurd rfl base
  | _ => rfl

theorem Category.ne_extension {c : Category} (routed : c.routes = true) : c ≠ .extension := by
  rintro rfl
  cases routed

/-- So announcing the parts of a node is collecting what they signal. -/
theorem Form.announced_parts {c : Category} {s : Slot} (form : Form c s) (parts : s.Part) :
    s.announced flavor parts = s.collect flavor.signals parts := by
  cases form <;> rfl

theorem Frame.extensionNodes_build {c : Category} {s : Slot} (frame : Frame c s) (parts : s.Part) :
    (frame.build parts).collect Tree.extensionContribution =
      s.collect Tree.extensionContribution parts := by
  cases frame with
  | scalarExtension | sourceExtension | extensionStatement | queryStatement | scalarStatement
  | sourceStatement => exact List.append_nil _
  | _ => rfl

theorem Tree.extensionContribution_before {c : Category} (node : Tree c)
    (other : c ≠ .extension) : Tree.extensionContribution.before node = [] := by
  cases c with
  | extension => exact absurd rfl other
  | _ => rfl

/-- A node that is not owned is given up when it is handed to the dialect, and nothing inside it
counts; one that is owned is announced, and goes on by itself. -/
theorem Flavor.silent_announcement (node : Extension)
    (inside : flavor.owns node = true →
      (Action.traceAll ((Slot.tree .extension).announced flavor node)).silent =
        Action.traceAll (node.extensionNodes.flatMap flavor.remarks)) :
    (Action.traceAll (flavor.announcement node ++ node.signals flavor)).silent =
      Action.traceAll (node.extensionNodes.flatMap flavor.remarks) := by
  cases owned : flavor.owns node with
  | true =>
    have announced : flavor.announcement node ++ node.signals flavor =
        (Slot.tree .extension).announced flavor node := by
      rw [announcement, owned]
      rfl
    rw [announced, inside owned]
  | false =>
    have refused : flavor.announcement node = flavor.remarks node := by
      rw [announcement, remarks, verdict, flavor.offence_of_not_owned owned, owned]
      cases node <;> rfl
    have stopped := (congrArg Trace.error (flavor.trace_remarks node)).trans
      (flavor.offence_of_not_owned owned)
    obtain ⟨rest, first⟩ : ∃ rest, node.extensionNodes = node :: rest := by
      cases node <;> exact ⟨_, rfl⟩
    rw [first, List.flatMap_cons, refused, Action.traceAll_append, Action.traceAll_append,
      Trace.append_of_stopped stopped, Trace.append_of_stopped stopped, flavor.trace_remarks]
    rfl

/-- Apart from parameters, the signals of a tree are what is said about its extension nodes. -/
theorem Slot.silent_announced (s : Slot) (parts : s.Part) (admitted : s.Admitted flavor parts) :
    (Action.traceAll (s.announced flavor parts)).silent =
      Action.traceAll ((s.collect Tree.extensionContribution parts).flatMap flavor.remarks) := by
  induction s, parts using Slot.induction with
  | unit | table | column | argument | noColumns => rfl
  | moreColumns node nodes ih => exact ih trivial
  | pair a b first second ihFirst ihSecond =>
    rw [announced, collect, List.flatMap_append, Action.traceAll_append, Action.traceAll_append,
      Trace.silent_append, ihFirst admitted.1, ihSecond admitted.2]
  | frame frame parts ih =>
    rw [collect, frame.extensionNodes_build]
    cases frame with
    | scalarExtension | sourceExtension | extensionStatement =>
      exact (congrArg (fun signals => (Action.traceAll signals).silent) (List.append_nil _)).trans
        (flavor.silent_announcement parts ih)
    | queryStatement | scalarStatement | sourceStatement =>
      exact (congrArg (fun signals => (Action.traceAll signals).silent) (List.append_nil _)).trans
        (ih rfl)
    | column | argument | table | nil | absent => rfl
    | @cons c =>
      have routed : c.routes = true := admitted
      have inside := ih ⟨admitted_tree flavor routed _, admitted⟩
      rw [announced, announced_base flavor (Category.ne_extension routed)] at inside
      exact inside
    | @present c =>
      have routed : c.routes = true := admitted
      have inside := ih (admitted_tree flavor routed _)
      rwa [announced_base flavor (Category.ne_extension routed)] at inside
  | @node c s form id parts ih =>
    have inside := ih (form.admitted_parts flavor parts)
    rw [form.announced_parts] at inside
    rw [collect, form.collect_build, Contribution.around]
    by_cases extension : c = .extension
    · subst extension
      obtain ⟨entry, exit⟩ := form.signals_extension flavor id parts admitted
      have own : Tree.extensionContribution.before (form.build id parts) =
        [form.build id parts] := rfl
      have nothing : Tree.extensionContribution.after (form.build id parts) = [] := rfl
      rw [announced, Tree.signals, form.collect_build, flavor.signals_around, entry, own, nothing,
        List.append_nil, List.flatMap_append, List.flatMap_singleton, ← List.cons_append,
        ← List.cons_append, ← Flavor.remarks, Action.traceAll_append, Action.traceAll_append,
        Action.traceAll_append, Trace.silent_append, Trace.silent_append, inside, exit,
        Trace.append_empty, flavor.trace_remarks]
      rfl
    · have base := Tree.extensionContribution_before (form.build id parts) extension
      obtain ⟨entry, exit⟩ := form.signals_base flavor id parts extension
      have nothing : Tree.extensionContribution.after (form.build id parts) = [] := rfl
      rw [announced_base flavor extension, Tree.signals, form.collect_build, flavor.signals_around,
        entry, base, nothing, List.append_nil, List.nil_append, List.nil_append,
        Action.traceAll_append, Trace.silent_append, inside, exit, Trace.append_empty]

/-- Apart from parameters, the signals of a statement are the remarks on its extension nodes. -/
theorem Tree.silent_signals (statement : Statement) :
    (Action.traceAll (statement.signals flavor)).silent =
      Action.traceAll (statement.extensionNodes.flatMap flavor.remarks) :=
  Slot.silent_announced flavor (.tree .statement) statement rfl

/-- The script of a statement stops at the first node that offends. -/
theorem Tree.head_failures (statement : Statement) :
    (statement.failures flavor).head? =
      (statement.extensionNodes.filterMap flavor.offence).head? := by
  have failures : statement.failures flavor =
      (statement.signals flavor).flatMap Action.failure :=
    (statement.flatMap_collect flavor.signals Action.failure).symm
  have errors := congrArg Trace.error (statement.silent_signals flavor)
  rw [Trace.silent, Action.error_traceAll, flavor.error_remarks] at errors
  rw [failures, errors]

end Offences

/-! ## The result -/

/-- The script of a statement that succeeds binds the parameters of the statement. -/
theorem Tree.bound_script {flavor : Flavor} {style : Style} {statement : Statement}
    {f g : Formatter}
    (ran : Action.exec style (Script.actions flavor statement.script) f = (.ok (), g)) :
    g.parameters.toList = f.parameters.toList ++ statement.parameters := by
  obtain ⟨going, bound, -⟩ := Action.exec_ok ran
  have traced : Action.traceAll (Script.actions flavor statement.script) =
      Action.traceAll (statement.signals flavor) := statement.trace_script flavor
  rw [traced] at going bound
  rw [bound, Action.traceAll_parameters going, statement.flatMap_signals flavor]

/-- The text and the parameters that a statement has in a flavor and a layout. The name of a
function may bring white space to the front of the text, which is left out. -/
def Tree.formatted (flavor : Flavor) (layout : Layout) (statement : Statement) : Formatted where
  sql := .ofList ((statement.render flavor layout 0).dropWhile Blank.isBlank)
  parameters := statement.parameters

/-- A format that succeeds returns what the statement has by itself. -/
theorem format_eq_formatted {flavor : Flavor} {options : FormatOptions} {statement : Statement}
    {formatted : Formatted} (success : format flavor.dialect options statement = .ok formatted) :
    formatted = statement.formatted flavor options.layout := by
  obtain ⟨f, ran, returned⟩ := format_ok success
  have writes : Script.Writes flavor options 0 statement.script
      (statement.render flavor options.layout 0) := statement.writes_script flavor options 0
  obtain ⟨written, -⟩ := writes [] {} f rfl rfl ran
  have nonblank : NonblankEnds False (statement.render flavor options.layout 0) :=
    statement.nonblankTexts_render flavor options.layout 0 False.elim
  have bound : f.parameters.toList = statement.parameters := Tree.bound_script ran
  rw [returned, Formatter.result, Tree.formatted, written, bound, List.nil_append,
    Blank.trim_append_of_endsNonblank nonblank.ends]

/-- The first node that offends has the first error. -/
theorem Tree.head_offending (flavor : Flavor) (statement : Statement) :
    (statement.offending flavor).head?.bind flavor.offence =
      (statement.failures flavor).head? := by
  rw [statement.head_failures flavor, offending]
  induction statement.extensionNodes with
  | nil => rfl
  | cons node rest ih =>
    cases wrong : flavor.offence node with
    | none => rw [List.filter_cons_of_neg (by simp [wrong]), List.filterMap_cons_none wrong, ih]
    | some error =>
      rw [List.filter_cons_of_pos (by simp [wrong]), List.filterMap_cons_some wrong]
      exact wrong

/-- Nodes are listed as offending only with something that is wrong. -/
theorem Tree.offence_of_offending {flavor : Flavor} {statement : Statement} {node : Extension}
    {rest : List Extension} (first : statement.offending flavor = node :: rest) :
    ∃ error, flavor.offence node = some error := by
  have member : node ∈ statement.offending flavor := first ▸ List.mem_cons_self
  exact Option.isSome_iff_exists.mp (List.mem_filter.mp member).2

/-- Formatting returns the error of the first node that offends, or what the statement has by
itself. -/
theorem format_eq (flavor : Flavor) (options : FormatOptions) (statement : Statement) :
    format flavor.dialect options statement =
      ((statement.offending flavor).head?.bind flavor.offence).elim
        (.ok (statement.formatted flavor options.layout)) .error := by
  rw [statement.head_offending flavor]
  cases first : (statement.failures flavor).head? with
  | none =>
    obtain ⟨formatted, success⟩ := format_succeeds_of_failures first options
    rw [success, format_eq_formatted success]
    rfl
  | some error => exact format_eq_error_of_failures first options

/-- Formatting succeeds if there is nothing wrong with any extension node. -/
theorem format_succeeds_iff (flavor : Flavor) (options : FormatOptions) (statement : Statement) :
    (∃ formatted, format flavor.dialect options statement = .ok formatted) ↔
      statement.offending flavor = [] := by
  have result := format_eq flavor options statement
  cases nodes : statement.offending flavor with
  | nil =>
    rw [nodes] at result
    exact ⟨fun _ => rfl, fun _ => ⟨_, result⟩⟩
  | cons node rest =>
    obtain ⟨error, wrong⟩ := Tree.offence_of_offending nodes
    rw [nodes, List.head?_cons, Option.bind_some, wrong] at result
    refine ⟨fun ⟨formatted, success⟩ => ?_, nofun⟩
    cases result.symm.trans success

/-- The error is that of the first offending node, and of no other. -/
theorem format_eq_error_iff (flavor : Flavor) (options : FormatOptions) (statement : Statement)
    (error : Error) :
    format flavor.dialect options statement = .error error ↔
      ∃ node rest, statement.offending flavor = node :: rest ∧
        flavor.offence node = some error := by
  have result := format_eq flavor options statement
  cases nodes : statement.offending flavor with
  | nil =>
    rw [nodes] at result
    refine ⟨fun failed => ?_, nofun⟩
    cases result.symm.trans failed
  | cons node rest =>
    obtain ⟨first, wrong⟩ := Tree.offence_of_offending nodes
    rw [nodes, List.head?_cons, Option.bind_some, wrong] at result
    constructor
    · intro failed
      cases result.symm.trans failed
      exact ⟨node, rest, rfl, wrong⟩
    · rintro ⟨other, others, same, found⟩
      obtain ⟨rfl, -⟩ := List.cons.inj same
      cases wrong.symm.trans found
      exact result

/-- A statement can be formatted exactly if none of its extension nodes offends. Otherwise the error
is that of the first one that does: a node that the flavor does not own, whatever the name of its
kind, a malformed bulk insert, or an upsert with updates and no conflict columns. No statement is
ever given up because a node was changed or because of a line break, at any depth of nesting. -/
theorem format_returns_first_offence (flavor : Flavor) (options : FormatOptions)
    (statement : Statement) :
    ((∃ formatted, format flavor.dialect options statement = .ok formatted) ↔
        statement.offending flavor = []) ∧
      (∀ error, format flavor.dialect options statement = .error error ↔
        ∃ node rest, statement.offending flavor = node :: rest ∧
          flavor.offence node = some error) ∧
      (∀ kind, format flavor.dialect options statement ≠ .error (.treeModified kind)) ∧
      format flavor.dialect options statement ≠ .error .indentUnderflow ∧
      (∀ id into row updates,
        format Flavor.postgresql.dialect options
            (.extensionStatement (.duplicateKeyUpsert id into row updates)) =
          .error (.unsupportedNode "insert_or_update")) ∧
      ∀ id into row conflict updates,
        format Flavor.mysql.dialect options
            (.extensionStatement (.conflictUpsert id into row conflict updates)) =
          .error (.unsupportedNode "insert_or_update") := by
  have fails := format_eq_error_iff flavor options statement
  have other : ∀ error, format flavor.dialect options statement = .error error →
      error ≠ .indentUnderflow ∧ ∀ kind, error ≠ .treeModified kind := by
    intro error failed
    obtain ⟨node, -, -, wrong⟩ := (fails error).mp failed
    obtain rfl | ⟨fault, rfl⟩ | ⟨table, rfl⟩ := flavor.offence_cases wrong
    · exact ⟨nofun, nofun⟩
    · exact ⟨nofun, nofun⟩
    · exact ⟨nofun, nofun⟩
  refine ⟨format_succeeds_iff flavor options statement, fails,
    fun kind failed => (other _ failed).2 kind rfl, fun failed => (other _ failed).1 rfl,
    fun id into row updates => ?_, fun id into row conflict updates => ?_⟩
  · exact format_eq_error_of_failures rfl options
  · exact format_eq_error_of_failures rfl options

/-- A bulk insert without rows is reported, and not the pattern match that follows it. -/
example :
    let bulk : Source := .sourceExtension (.bulkInsert 1 ⟨2, { name := "book" }⟩ .nil)
    let title : Scalar := .column ⟨3, { name := "title", type := .text }⟩
    let alike : Scalar := .scalarExtension (.ilike 4 title title)
    let search : Statement :=
      .queryStatement (.select 5 .nil bulk (.present alike) .nil .absent false .nil {})
    (search.extensionNodes.map Tree.kind, search.extensionNodes.map Flavor.mysql.offence) =
      (["bulk_insert", "ilike"],
        [some (.malformedBulkInsert (.noRows "book")), some (.unsupportedNode "ilike")]) :=
  rfl

end SqlTree
