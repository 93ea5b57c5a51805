import SqlTree.Proofs.Script.Depth

/-!
# Trees that are always written

Only extension nodes can fail: those that the dialect does not own, and those that do not pass their
own check. A tree without extension nodes is written to its end in every dialect and layout, by any
formatter.
-/

namespace SqlTree

/-! ## Failures -/

def Action.failure : Action → List Error
  | .fail error => [error]
  | _ => []

/-- The trace of some actions stops at the first failure. -/
theorem Action.error_traceAll (actions : List Action) :
    (traceAll actions).error = (actions.flatMap failure).head? := by
  induction actions with
  | nil => rfl
  | cons action rest ih =>
    rw [traceAll, List.flatMap_cons]
    cases action with
    | fail error => rfl
    | _ =>
      rw [Trace.append_of_going rfl]
      exact ih

def Flavor.failures (flavor : Flavor) : Contribution Error :=
  flavor.signals.flatMap Action.failure

/-- All failures of a tree, in the order of its text. -/
def Tree.failures (flavor : Flavor) {c : Category} (tree : Tree c) : List Error :=
  tree.collect flavor.failures

/-- The script of a tree stops at the first failure of the tree. -/
theorem Tree.error_trace_script (flavor : Flavor) {c : Category} (tree : Tree c) :
    (Written.trace flavor tree.script).error = (tree.failures flavor).head? := by
  rw [tree.trace_script, Action.error_traceAll, signals, tree.flatMap_collect]
  rfl

/-! ## Extension nodes -/

def Tree.extensionContribution : Contribution Extension where
  before {c} node :=
    match c, node with
    | .extension, node => [node]
    | _, _ => []

/-- The extension nodes of a tree, those inside others included. -/
def Tree.extensionNodes {c : Category} (tree : Tree c) : List Extension :=
  tree.collect Tree.extensionContribution

theorem Tree.extensionNodes_ne_nil (node : Extension) : node.extensionNodes ≠ [] := by
  cases node <;> exact List.cons_ne_nil _ _

theorem Page.failures_bindings (page : Page) : page.bindings.flatMap Action.failure = [] := by
  rw [bindings]
  split <;> rfl

/-- A node of another category fails only in its parts. -/
theorem Form.failures_around (flavor : Flavor) {c : Category} {s : Slot} (form : Form c s)
    (id : NodeId) (parts : s.Part) (base : c ≠ .extension) :
    flavor.failures.before (form.build id parts) = [] ∧
      flavor.failures.after (form.build id parts) = [] := by
  cases form with
  | select distinct page => exact ⟨rfl, page.failures_bindings⟩
  | union all page => exact ⟨rfl, page.failures_bindings⟩
  | duplicateKeyUpsert | bulkInsert | naturalJoin | matchAgainst | ilike | conflictUpsert
  | foreign => exact absurd rfl base
  | _ => exact ⟨rfl, rfl⟩

/-- Where there are no extension nodes, nothing fails. -/
theorem Slot.failures_eq_nil (flavor : Flavor) (s : Slot) (parts : s.Part)
    (base : s.collect Tree.extensionContribution parts = []) :
    s.collect flavor.failures parts = [] := by
  induction s, parts using Slot.induction with
  | unit | table | column | argument | noColumns => rfl
  | moreColumns node nodes ih =>
    refine List.append_eq_nil_iff.mpr ⟨rfl, ih ?_⟩
    exact (List.append_eq_nil_iff.mp base).2
  | pair a b first second ihFirst ihSecond =>
    obtain ⟨left, right⟩ := List.append_eq_nil_iff.mp base
    exact List.append_eq_nil_iff.mpr ⟨ihFirst left, ihSecond right⟩
  | frame frame parts ih =>
    cases frame with
    | scalarExtension | sourceExtension | extensionStatement =>
      have inside : Tree.extensionNodes parts = [] := (List.append_nil _).symm.trans base
      exact absurd inside (Tree.extensionNodes_ne_nil parts)
    | queryStatement | scalarStatement | sourceStatement =>
      have inside := ih ((List.append_nil _).symm.trans base)
      exact (List.append_nil _).trans inside
    | column | argument | table | nil | absent => rfl
    | cons | present => exact ih base
  | @node c s form id parts ih =>
    have other : c ≠ .extension := by
      rintro rfl
      exact Tree.extensionNodes_ne_nil _ base
    obtain ⟨before, after⟩ := form.failures_around flavor id parts other
    rw [collect, form.collect_build, Contribution.around] at base ⊢
    have inside := ih (List.append_eq_nil_iff.mp (List.append_eq_nil_iff.mp base).1).2
    rw [before, after, inside]
    rfl

/-! ## Success -/

theorem Trace.result_eq (trace : Trace) : trace.result = trace.error.elim (.ok ()) .error := by
  rw [result]
  cases trace.error <;> rfl

/-- Only extension nodes fail. -/
theorem Tree.failures_eq_nil (flavor : Flavor) {c : Category} {tree : Tree c}
    (base : tree.extensionNodes = []) : tree.failures flavor = [] :=
  Slot.failures_eq_nil flavor (.tree c) tree base

/-- A scalar without extension nodes is written as an operand by any formatter. -/
theorem Tree.operand_succeeds (flavor : Flavor) (options : FormatOptions) {scalar : Scalar}
    (base : scalar.extensionNodes = []) (f : Formatter) :
    (f.perform flavor.dialect options
      (Script.run flavor.dialect (Script.operand scalar scalar.script))).1 = .ok () := by
  have neutral : Script.DepthNeutral flavor scalar.script := scalar.depthNeutral_script flavor
  have going : (Script.trace flavor scalar.script).error = (scalar.failures flavor).head? :=
    scalar.error_trace_script flavor
  have bracketed := (Script.inherited_depthNeutral flavor).operand scalar neutral
  rw [bracketed.result options f, Script.trace_operand, Trace.result, going,
    failures_eq_nil flavor base]
  rfl

/-- Whether a statement can be formatted, and with which error it fails, is said by its failures. -/
theorem format_result (flavor : Flavor) (options : FormatOptions) (statement : Statement) :
    (format flavor.dialect options statement).map (fun _ => ()) =
      (statement.failures flavor).head?.elim (.ok ()) .error := by
  have neutral : Script.DepthNeutral flavor statement.script := statement.depthNeutral_script flavor
  have going : (Script.trace flavor statement.script).error = (statement.failures flavor).head? :=
    statement.error_trace_script flavor
  have result := neutral.result options {}
  rw [Trace.result_eq, going] at result
  rw [← result, format, formatWithState, Formatter.formatStatement, Formatter.perform_bind]
  rcases Formatter.perform {} flavor.dialect options
    (Script.run flavor.dialect statement.script) with ⟨error | _, f⟩ <;> rfl

/-- A statement without failures can be formatted. -/
theorem format_succeeds_of_failures {flavor : Flavor} {statement : Statement}
    (fine : (statement.failures flavor).head? = none) (options : FormatOptions) :
    ∃ formatted, format flavor.dialect options statement = .ok formatted := by
  have result := format_result flavor options statement
  rw [fine] at result
  cases returned : format flavor.dialect options statement with
  | ok formatted => exact ⟨formatted, rfl⟩
  | error error =>
    rw [returned] at result
    cases result

/-- A statement with failures is given up at the first of them. -/
theorem format_eq_error_of_failures {flavor : Flavor} {statement : Statement} {error : Error}
    (first : (statement.failures flavor).head? = some error) (options : FormatOptions) :
    format flavor.dialect options statement = .error error := by
  have result := format_result flavor options statement
  rw [first] at result
  cases returned : format flavor.dialect options statement with
  | ok formatted =>
    rw [returned] at result
    cases result
  | error other =>
    rw [returned] at result
    exact congrArg Except.error (Except.error.inj result)

/-- A statement without extension nodes can be formatted. -/
theorem format_succeeds (flavor : Flavor) (options : FormatOptions) {statement : Statement}
    (base : statement.extensionNodes = []) :
    ∃ formatted, format flavor.dialect options statement = .ok formatted := by
  refine format_succeeds_of_failures ?_ options
  rw [Tree.failures_eq_nil flavor base]
  rfl

end SqlTree
