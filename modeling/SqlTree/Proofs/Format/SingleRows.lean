import SqlTree.Proofs.Format.Ownership
import SqlTree.Proofs.Format.WriterRuns

/-!
# Inserts of one row

One row can be inserted by a plain insert, by either of the two upserts with nothing to update, and
by a bulk insert of that row alone. Two of these check the row first, and each ends in a way of its
own; on one row they cannot be told apart.
-/

namespace SqlTree

/-- The ways in which a single row can be inserted. -/
inductive RowInsert where
  | plain
  /-- The MySQL upsert, without updates. -/
  | duplicateKey
  /-- A bulk insert of that row alone. -/
  | bulk
  /-- The PostgreSQL upsert, without conflict columns and updates. -/
  | conflict
  deriving DecidableEq

namespace RowInsert

variable (id : NodeId) (into : Node Table) (row : Tree (.list .assignment))

def statement : RowInsert → Statement
  | .plain => .insert id into row
  | .duplicateKey => .extensionStatement (.duplicateKeyUpsert id into row .nil)
  | .bulk => .extensionStatement (.bulkInsert id into (.cons row .nil))
  | .conflict => .extensionStatement (.conflictUpsert id into row [] .nil)

/-- What a formatter does to insert a row in some way. The writers of extension nodes can be called
on any formatter, whatever its dialect. -/
def operation : RowInsert → Operation
  | .plain => .visit (.statement (.insert id into row))
  | .duplicateKey => .extension (.duplicateKeyUpsert id into row .nil)
  | .bulk => .extension (.bulkInsert id into (.cons row .nil))
  | .conflict => .extension (.conflictUpsert id into row [] .nil)

/-- A flavor that has this way to insert a row. -/
def flavor : RowInsert → Flavor
  | .plain => .generic
  | .duplicateKey => .mysql
  | .bulk => .mysql
  | .conflict => .postgresql

end RowInsert

/-! ## What is written -/

def Tree.assigned : Assignment → Scalar
  | .assign _ _ value => value

/-- The elementary operations that an insert of one row comes down to. -/
def insertOperations (into : Table) (row : Tree (.list .assignment)) : List Operation :=
  [.writeKeyword "INSERT INTO", .tableName into, .columnNames row.targets, .writeKeyword "VALUES",
    .values (.ofList (row.toList.map Tree.assigned))]

def Operation.runAll (dialect : Dialect) : List Operation → FormatM Unit
  | [] => pure ()
  | operation :: rest => do
    operation.run dialect
    runAll dialect rest

/-- Scripts are run one after the other. -/
theorem Script.run_append (dialect : Dialect) (first rest : Script) :
    run dialect (first ++ rest) = run dialect first >>= fun _ => run dialect rest := by
  induction first with
  | nil => exact (pure_bind () fun _ => run dialect rest).symm
  | cons step first ih => rw [List.cons_append, run, run, ih, bind_assoc]

theorem Script.run_keyword (dialect : Dialect) (s : String) :
    run dialect (keyword s) = Formatter.writeKeyword s :=
  bind_pure (Formatter.write (s ++ " "))

/-- A list is written member by member. -/
theorem Tree.script_list : {c : Category} → (nodes : Tree (.list c)) →
    (nodes.script : List (Written c)) = nodes.toList.map Tree.script
  | _, .nil => rfl
  | _, .cons head tail => congrArg (head.script :: ·) tail.script_list

theorem Tree.column_script (entry : Assignment) :
    Setting.column entry.script = entry.target.value := by
  cases entry
  rfl

theorem Tree.value_script (entry : Assignment) :
    Setting.value entry.script = entry.assigned.script := by
  cases entry
  rfl

/-- The script of an insert is that of its elementary operations. -/
theorem run_insertRow (dialect : Dialect) (into : Table) (row : Tree (.list .assignment)) :
    Script.run dialect (Script.insertRow into row.script) =
      Operation.runAll dialect (insertOperations into row) := by
  have columns : (row.script : List Setting).map Setting.column = row.targets := by
    rw [row.script_list, List.map_map, Tree.targets]
    exact List.map_congr_left fun entry _ => entry.column_script
  have values : (row.script : List Setting).map Setting.value =
      (Tree.ofList (row.toList.map Tree.assigned)).script := by
    rw [row.script_list, Tree.script_list, Tree.toList_ofList, List.map_map, List.map_map]
    exact List.map_congr_left fun entry _ => entry.value_script
  rw [Script.insertRow, Script.insertHead, Script.rowValues, columns, values]
  simp only [Script.run_append, Script.run_keyword, bind_assoc]
  simp only [insertOperations, Operation.runAll, Operation.run, bind_pure_unit]

/-! ## Scripts -/

/-- A single row has the columns of the first row, and no commas between it and others. -/
theorem Script.insertRows_single (into : Table) (row : List Setting) :
    insertRows into [row] = insertRow into row :=
  rfl

/-- A single row has no other one to differ from. -/
theorem validateBulkInsert_single (into : Table) (row : Tree (.list .assignment)) :
    validateBulkInsert into (.cons row .nil) = .ok () :=
  rfl

/-- Every way to insert a row runs the script of a plain insert. -/
theorem RowInsert.run_operation (dialect : Dialect) (id : NodeId) (into : Node Table)
    (row : Tree (.list .assignment)) (way : RowInsert) :
    (way.operation id into row).run dialect =
      Script.run dialect (Script.insertRow into.value row.script) := by
  have unchanged : Script.insertRow into.value row.script ++ [] =
      Script.insertRow into.value row.script := List.append_nil _
  cases way with
  | plain => rfl
  | duplicateKey => exact congrArg (Script.run dialect) unchanged
  | bulk =>
    refine congrArg (Script.run dialect) ?_
    rw [Tree.script, validateBulkInsert_single]
    exact Script.insertRows_single into.value row.script
  | conflict => exact congrArg (Script.run dialect) unchanged

/-! ## Statements -/

section Statements

variable {flavor : Flavor} {node : Extension} {id : NodeId} {into : Node Table}
  {row : Tree (.list .assignment)}

/-- An extension node of the flavor that passes its check, has the text of a plain insert and is
made of the parts of its row, is formatted like that insert. -/
theorem format_extension_eq_insert (owned : flavor.owns node = true)
    (valid : node.validate = .ok ())
    (parts : ∀ {α : Type} (own : Contribution α), (∀ table, own.table table = []) →
      node.collect own = own.around node (row.collect own))
    (unbound : node.ownParameters = [])
    (text : ∀ layout depth, node.render flavor layout depth =
      (Tree.insert id into row).render flavor layout depth) (options : FormatOptions) :
    format flavor.dialect options (.extensionStatement node) =
      format flavor.dialect options (.insert id into row) := by
  have nodes : (Tree.extensionStatement node).extensionNodes = node :: row.extensionNodes := by
    have collected := parts Tree.extensionContribution fun _ => rfl
    exact (List.append_nil _).trans (collected.trans (List.append_nil _))
  have insertNodes : (Tree.insert id into row).extensionNodes = row.extensionNodes :=
    List.append_nil _
  have parameters : (Tree.extensionStatement node).parameters = row.parameters := by
    have collected : node.parameters = [] ++ row.parameters ++ node.ownParameters :=
      parts { argument := fun node => [node.value], after := Tree.ownParameters } fun _ => rfl
    rw [unbound, List.append_nil] at collected
    exact (List.append_nil _).trans collected
  have insertParameters : (Tree.insert id into row).parameters = row.parameters :=
    List.append_nil _
  have result : (Tree.extensionStatement node).formatted flavor options.layout =
      (Tree.insert id into row).formatted flavor options.layout := by
    unfold Tree.formatted
    rw [parameters, insertParameters, ← text]
    rfl
  rw [format_eq, format_eq, Tree.head_offending, Tree.head_offending, Tree.head_failures,
    Tree.head_failures, nodes, insertNodes, result,
    List.filterMap_cons_none (flavor.offence_of_owned valid owned)]

/-- Each way to insert a row is formatted by its flavor as that flavor formats a plain insert. -/
theorem RowInsert.format_statement (id : NodeId) (into : Node Table)
    (row : Tree (.list .assignment)) (options : FormatOptions) (way : RowInsert) :
    format way.flavor.dialect options (way.statement id into row) =
      format way.flavor.dialect options (.insert id into row) := by
  cases way with
  | plain => rfl
  | duplicateKey =>
    refine format_extension_eq_insert rfl rfl (fun own empty => ?_) rfl (fun _ _ => ?_) options
    · simp [Tree.collect, empty]
    · exact congrArg Grammar.phrase (List.append_nil _)
  | bulk =>
    refine format_extension_eq_insert rfl rfl (fun own empty => ?_) rfl (fun _ _ => rfl) options
    simp [Tree.collect, empty]
  | conflict =>
    refine format_extension_eq_insert rfl rfl (fun own empty => ?_) rfl (fun _ _ => ?_) options
    · simp [Tree.collect, empty]
    · exact congrArg Grammar.phrase (List.append_nil _)

end Statements

/-- **All inserts of one row agree.** Whatever a formatter has written so far, and whichever dialect
it has, the four ways to insert a row leave it in the same state, and all of them succeed or all of
them fail with the same error, also if a value in the middle of the row cannot be written: each does
what the operations for its head and its values do, one after the other. So each way is formatted,
by the flavor that has it, as a plain insert. -/
theorem row_inserts_agree (flavor : Flavor) (options : FormatOptions) (into : Node Table)
    (row : Tree (.list .assignment)) :
    (∀ (f : Formatter) (way way' : RowInsert) (id id' : NodeId),
        f.perform flavor.dialect options ((way.operation id into row).run flavor.dialect) =
          f.perform flavor.dialect options ((way'.operation id' into row).run flavor.dialect)) ∧
      (∀ (f : Formatter) (way : RowInsert) (id : NodeId),
        f.perform flavor.dialect options ((way.operation id into row).run flavor.dialect) =
          f.perform flavor.dialect options
            (Operation.runAll flavor.dialect (insertOperations into.value row))) ∧
      ∀ (way : RowInsert) (id : NodeId),
        format way.flavor.dialect options (way.statement id into row) =
          format way.flavor.dialect options (.insert id into row) := by
  refine ⟨fun f way way' id id' => ?_, fun f way id => ?_,
    fun way id => way.format_statement id into row options⟩
  · rw [way.run_operation, way'.run_operation]
  · rw [way.run_operation, run_insertRow]

end SqlTree
