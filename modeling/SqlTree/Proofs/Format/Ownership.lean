import SqlTree.Proofs.Format.Failure
import SqlTree.Proofs.Transform.Traversal

/-!
# Formatters and traversals accept the same nodes

Which extension nodes a flavor can treat is decided twice, and apart: by its dialect when a tree is
written (`Flavor.writeExtension`), and by its traversal when a tree is transformed (`Flavor.route`).
`Form.entered_extension` compares the two lists of nodes. Both go through a tree in an order of
their own making. They still stop at the same node, the first one of the text that does not belong
to the flavor, unless an insert fails its own check: only the formatter looks at that.
-/

namespace SqlTree

/-! ## The traversal that changes nothing -/

/-- The traversal of a flavor with no hooks but the one that enters the flavor's nodes. The generic
flavor has no nodes, and its traversal no hooks at all. -/
def Flavor.idle {σ : Type} : Flavor → Transformer σ
  | .generic => {}
  | .mysql => { extension := Flavor.mysql.route }
  | .postgresql => { extension := Flavor.postgresql.route }

def LeafVisitor.idle {σ : Type} : LeafVisitor σ :=
  ⟨pure, pure, pure⟩

/-- The generic traversal has no hook for extension nodes, and the default refuses them all. -/
theorem Flavor.idle_eq {σ : Type} (flavor : Flavor) :
    (flavor.idle : Transformer σ) = LeafVisitor.idle.transformer flavor := by
  cases flavor with
  | generic =>
    have refuses : (Flavor.generic.route : Extension → TransformM σ Extension → _) =
        fun node _ => throw (.unsupportedNode node.kind) := by
      funext node walk
      cases node <;> rfl
    rw [LeafVisitor.transformer, refuses]
    rfl
  | mysql | postgresql => rfl

def Flavor.firstOther (flavor : Flavor) (nodes : List Extension) : Option Extension :=
  nodes.find? fun node => !flavor.owns node

section Idle

variable {σ α β : Type}

/-- An operation leaves everything as it is: it returns `a`, or refuses a node. -/
def TransformM.Keeps (op : TransformM σ α) (a : α) (refused : Option Extension) : Prop :=
  ∀ state, op.exec state =
    (refused.elim (.ok a) fun node => .error (.unsupportedNode node.kind), state)

theorem TransformM.keeps_pure (a : α) : Keeps (pure a : TransformM σ α) a none := by
  intro state
  rfl

/-- The first refusal counts, since nothing is done after it. -/
theorem TransformM.Keeps.bind {op : TransformM σ α} {rest : α → TransformM σ β} {a : α} {b : β}
    {refused refused' : Option Extension} (first : Keeps op a refused)
    (second : Keeps (rest a) b refused') : Keeps (op >>= rest) b (refused.or refused') := by
  intro state
  rw [exec_bind, first state]
  cases refused with
  | some node => rfl
  | none => exact second state

theorem TransformM.Keeps.map {op : TransformM σ α} {a : α} {refused : Option Extension}
    (keeps : Keeps op a refused) (f : α → β) : Keeps (f <$> op) (f a) refused := by
  rw [← bind_pure_comp, ← Option.or_none (o := refused)]
  exact keeps.bind (keeps_pure (f a))

/-- A node whose parts are the same is kept. -/
theorem TransformM.keeps_rebuild {c : Category} {unchanged : Bool} (same : unchanged = true)
    (node : Tree c) (build : NodeId → Tree c) :
    Keeps (Transformer.rebuild unchanged node build : TransformM σ (Tree c)) node none := by
  rw [Transformer.rebuild, if_pos same]
  exact keeps_pure node

variable (flavor : Flavor)

/-- The node that is refused is found from left to right. -/
theorem Flavor.firstOther_append (front back : List Extension) :
    flavor.firstOther (front ++ back) = (flavor.firstOther front).or (flavor.firstOther back) :=
  List.find?_append

theorem Flavor.firstOther_cons_of_owned {node : Extension} (owned : flavor.owns node = true)
    (rest : List Extension) : flavor.firstOther (node :: rest) = flavor.firstOther rest := by
  rw [firstOther, List.find?_cons_of_neg (by simp [owned])]
  rfl

theorem Flavor.firstOther_cons_of_other {node : Extension} (other : flavor.owns node = false)
    (rest : List Extension) : flavor.firstOther (node :: rest) = some node :=
  List.find?_cons_of_pos (by simp [other])

/-- A node that is entered is an extension node of the flavor, or none at all. -/
theorem Form.firstOther_entered {c : Category} {s : Slot} (form : Form c s) (id : NodeId)
    (parts : s.Part) (entered : form.entered flavor = true) :
    flavor.firstOther ((form.build id parts).collect Tree.extensionContribution) =
      flavor.firstOther (s.collect Tree.extensionContribution parts) := by
  have behind : Tree.extensionContribution.after (form.build id parts) = [] := rfl
  rw [form.collect_build, Contribution.around, behind, List.append_nil]
  by_cases extension : c = .extension
  · subst extension
    rw [form.entered_extension flavor id parts] at entered
    exact flavor.firstOther_cons_of_owned entered _
  · rw [(form.build id parts).extensionContribution_before extension, List.nil_append]

/-- A node that is not entered is one of another flavor. -/
theorem Form.firstOther_refused {c : Category} {s : Slot} (form : Form c s) (id : NodeId)
    (parts : s.Part) (refused : form.entered flavor = false) :
    ∃ node : Extension, node.kind = (form.build id parts).kind ∧
      flavor.firstOther ((form.build id parts).collect Tree.extensionContribution) = some node := by
  by_cases extension : c = .extension
  · subst extension
    refine ⟨form.build id parts, rfl, ?_⟩
    rw [form.entered_extension flavor id parts] at refused
    rw [form.collect_build, Contribution.around, List.append_assoc]
    exact flavor.firstOther_cons_of_other refused _
  · rw [form.entered_base flavor extension] at refused
    cases refused

open TransformM in
/-- The traversal that changes nothing returns what it is given, or refuses the first node of
another flavor. -/
theorem Slot.keeps_idle (s : Slot) (parts : s.Part) :
    Keeps (s.transform (flavor.idle : Transformer σ) parts) parts
      (flavor.firstOther (s.collect Tree.extensionContribution parts)) := by
  rw [flavor.idle_eq]
  induction s, parts using Slot.induction with
  | unit => exact keeps_pure ()
  | table node | column node | argument node => exact keeps_pure node
  | noColumns => exact keeps_pure []
  | moreColumns node nodes ih =>
    rw [transform, List.mapM_cons]
    exact (keeps_pure node).bind (ih.map (node :: ·))
  | pair a b first second ihFirst ihSecond =>
    rw [transform, collect, flavor.firstOther_append]
    exact ihFirst.bind (ihSecond.map (first, ·))
  | frame frame parts ih =>
    rw [transform, transform_frame, collect, frame.extensionNodes_build]
    exact ih.map frame.build
  | node form id parts ih =>
    rw [transform, transform_form, collect]
    cases entered : form.entered flavor with
    | true =>
      rw [if_pos rfl, form.firstOther_entered flavor id parts entered]
      rw [← Option.or_none (o := flavor.firstOther _)]
      exact ih.bind (keeps_rebuild (Slot.same_self _ parts) _ _)
    | false =>
      obtain ⟨node, kind, first⟩ := form.firstOther_refused flavor id parts entered
      rw [first, if_neg Bool.false_ne_true, ← kind]
      intro state
      rfl

end Idle

/-! ## Both sides -/

section Valid

variable (flavor : Flavor) {node : Extension}

/-- A node that passes its own check offends only if it belongs to another flavor. -/
theorem Flavor.offence_of_owned (valid : node.validate = .ok ()) (owned : flavor.owns node = true) :
    flavor.offence node = none := by
  have checked : refusal node.validate = none := congrArg refusal valid
  cases node with
  | duplicateKeyUpsert | naturalJoin | matchAgainst =>
    cases flavor with
    | mysql => rfl
    | generic | postgresql => cases owned
  | bulkInsert =>
    cases flavor with
    | mysql => exact checked
    | generic | postgresql => cases owned
  | ilike =>
    cases flavor with
    | postgresql => rfl
    | generic | mysql => cases owned
  | conflictUpsert id into row conflict updates =>
    cases flavor with
    | postgresql =>
      exact (refusal_validateConflictTarget into.value conflict updates).symm.trans checked
    | generic | mysql => cases owned
  | foreign => cases owned

/-- If all inserts pass their checks, the first thing wrong is the first node of another flavor. -/
theorem Flavor.head_offences {nodes : List Extension}
    (valid : ∀ node ∈ nodes, node.validate = .ok ()) :
    (nodes.filterMap flavor.offence).head? =
      (flavor.firstOther nodes).map fun node => .unsupportedNode node.kind := by
  induction nodes with
  | nil => rfl
  | cons node rest ih =>
    obtain ⟨first, others⟩ := List.forall_mem_cons.mp valid
    cases owned : flavor.owns node with
    | true =>
      rw [List.filterMap_cons_none (flavor.offence_of_owned first owned),
        flavor.firstOther_cons_of_owned owned, ih others]
    | false =>
      rw [List.filterMap_cons_some (flavor.offence_of_not_owned owned),
        flavor.firstOther_cons_of_other owned]
      rfl

end Valid

/-- A statement whose inserts pass their checks is formatted, unless a node in it belongs to another
flavor. -/
theorem format_of_valid (flavor : Flavor) (options : FormatOptions) {statement : Statement}
    (valid : ∀ node ∈ statement.extensionNodes, node.validate = .ok ()) :
    format flavor.dialect options statement =
      (flavor.firstOther statement.extensionNodes).elim
        (.ok (statement.formatted flavor options.layout))
        fun node => .error (.unsupportedNode node.kind) := by
  rw [format_eq, statement.head_offending, statement.head_failures, flavor.head_offences valid]
  cases flavor.firstOther statement.extensionNodes <;> rfl

/-- The traversal that changes nothing returns a statement as it is, unless a node in it belongs to
another flavor. -/
theorem run_idle {σ : Type} (flavor : Flavor) (statement : Statement) (next : NodeId) (memory : σ) :
    (flavor.idle.run statement next memory).1 =
      (flavor.firstOther statement.extensionNodes).elim (.ok statement)
        fun node => .error (.unsupportedNode node.kind) :=
  congrArg Prod.fst (Slot.keeps_idle flavor (.tree .statement) statement ⟨next, memory⟩)

/-- Formatter and traversal of a flavor own the same nodes. On a statement whose inserts pass their
checks, either both succeed, and the traversal returns the very statement, or both fail, with the
same error: the first node of the text that does not belong to the flavor is not supported. -/
theorem format_agrees_with_traversal {σ : Type} (flavor : Flavor) (options : FormatOptions)
    {statement : Statement} (valid : ∀ node ∈ statement.extensionNodes, node.validate = .ok ())
    (next : NodeId) (memory : σ) :
    let formatted := format flavor.dialect options statement
    let visited := (flavor.idle.run statement next memory).1
    ((∃ result, formatted = .ok result) ↔ ∃ tree, visited = .ok tree) ∧
      (∀ tree, visited = .ok tree → tree = statement) ∧
      (∀ error, formatted = .error error ↔ visited = .error error) ∧
      ∀ error, formatted = .error error →
        ∃ node, flavor.firstOther statement.extensionNodes = some node ∧
          error = .unsupportedNode node.kind := by
  intro formatted visited
  have written : formatted = _ := format_of_valid flavor options valid
  have walked : visited = _ := run_idle flavor statement next memory
  rw [written, walked]
  cases first : flavor.firstOther statement.extensionNodes with
  | none =>
    refine ⟨⟨fun _ => ⟨_, rfl⟩, fun _ => ⟨_, rfl⟩⟩, ?_, ?_, ?_⟩
    · rintro tree ⟨⟩
      rfl
    · exact fun error => ⟨nofun, nofun⟩
    · exact fun error => nofun
  | some node =>
    refine ⟨⟨nofun, nofun⟩, nofun, ?_, ?_⟩
    · intro error
      constructor
      · rintro ⟨⟩
        rfl
      · rintro ⟨⟩
        rfl
    · rintro error ⟨⟩
      exact ⟨node, rfl, rfl⟩

/-- A search that mixes nodes of all flavors: rows that are inserted on the way, joined with books
by name, and a pattern around a full text search. -/
def mixedSearch : Statement :=
  let title : Scalar := .column ⟨0, { name := "title", type := .text }⟩
  let book : Source := .table ⟨1, { name := "book" }⟩
  let row (id : NodeId) (year : Int64) : Tree (.list .assignment) :=
    .cons (.assign id ⟨id, { name := "year", type := .int }⟩
      (.argument ⟨id, ⟨.int year, .int⟩⟩)) .nil
  let rows : Source :=
    .sourceExtension
      (.bulkInsert 2 ⟨3, { name := "new" }⟩ (.cons (row 4 1999) (.cons (row 5 2000) .nil)))
  let found : Scalar := .scalarExtension (.matchAgainst 6 (.cons title .nil) "lean" none)
  .queryStatement
    (.select 7 .nil (.sourceExtension (.naturalJoin 8 book rows))
      (.present (.scalarExtension (.ilike 9 title found))) .nil .absent false .nil {})

/-- The MySQL traversal and formatter both go through the join and the rows, and stop at the
pattern; those of PostgreSQL stop at the join. -/
theorem format_agrees_with_traversal_mixedSearch :
    (∀ node ∈ mixedSearch.extensionNodes, node.validate = .ok ()) ∧
      format Flavor.mysql.dialect {} mixedSearch = .error (.unsupportedNode "ilike") ∧
      (Flavor.mysql.idle.run mixedSearch 10 ()).1 = .error (.unsupportedNode "ilike") ∧
      format Flavor.postgresql.dialect {} mixedSearch = .error (.unsupportedNode "natural_join") ∧
      (Flavor.postgresql.idle.run mixedSearch 10 ()).1 =
        .error (.unsupportedNode "natural_join") := by
  have valid : ∀ node ∈ mixedSearch.extensionNodes, node.validate = .ok () :=
    List.forall_mem_cons.mpr ⟨rfl, List.forall_mem_cons.mpr ⟨rfl, List.forall_mem_cons.mpr
      ⟨rfl, List.forall_mem_singleton.mpr rfl⟩⟩⟩
  have mysql : format Flavor.mysql.dialect {} mixedSearch = .error (.unsupportedNode "ilike") :=
    format_eq_error_of_failures rfl {}
  have postgresql : format Flavor.postgresql.dialect {} mixedSearch =
      .error (.unsupportedNode "natural_join") := format_eq_error_of_failures rfl {}
  obtain ⟨-, -, mysqlErrors, -⟩ := format_agrees_with_traversal .mysql {} valid 10 ()
  obtain ⟨-, -, postgresqlErrors, -⟩ := format_agrees_with_traversal .postgresql {} valid 10 ()
  exact ⟨valid, mysql, (mysqlErrors _).mp mysql, postgresql, (postgresqlErrors _).mp postgresql⟩

end SqlTree
