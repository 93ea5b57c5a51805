import SqlTree.Proofs.Format.SingleRows

/-!
# Bulk inserts

The rows of a bulk insert are checked before anything is written: they have to name the columns of
the first row, in the same order, and the first row that does not is the one reported. So a bulk
insert either leaves a formatter as it was, or writes one list of columns and then, for each row, a
tuple with as many values as there are columns.
-/

namespace SqlTree

/-! ## The check -/

/-- With the lengths compared first, the comparison pair by pair is equality. -/
theorem sameNames_iff {names expected : List String} :
    sameNames names expected = true ↔ names = expected := by
  rw [sameNames, Bool.and_eq_true, beq_iff_eq, List.all_eq_true]
  induction names generalizing expected with
  | nil => cases expected <;> simp
  | cons name names ih =>
    cases expected with
    | nil => simp
    | cons other expected =>
      rw [List.zip_cons_cons, List.forall_mem_cons, beq_iff_eq, List.length_cons,
        List.length_cons, Nat.add_right_cancel_iff, List.cons.injEq, ← ih, and_left_comm]

/-- Nothing is found if no row differs, wherever the count of rows starts. -/
theorem findMismatch_eq_none_iff {expected : List String} {index : Nat}
    {names : List (List String)} :
    findMismatch expected index names = none ↔ ∀ columns ∈ names, columns = expected := by
  induction names generalizing index with
  | nil => simp [findMismatch]
  | cons own rest ih =>
    rw [findMismatch, List.forall_mem_cons]
    by_cases same : own = expected
    · rw [if_pos (sameNames_iff.mpr same), ih]
      exact (and_iff_right same).symm
    · rw [if_neg (mt sameNames_iff.mp same)]
      constructor
      · intro found
        cases found
      · rintro ⟨first, -⟩
        exact absurd first same

/-- A mismatch is found in the first row that differs. -/
theorem findMismatch_eq_some {expected : List String} {index : Nat} {names : List (List String)}
    {fault : BulkFault} (found : findMismatch expected index names = some fault) :
    ∃ i columns, names[i]? = some columns ∧ columns ≠ expected ∧
      (∀ j < i, names[j]? = some expected) ∧
      fault = .rowMismatch (index + i) columns expected := by
  induction names generalizing index with
  | nil => cases found
  | cons own rest ih =>
    rw [findMismatch] at found
    by_cases same : own = expected
    · rw [if_pos (sameNames_iff.mpr same)] at found
      obtain ⟨i, columns, there, different, earlier, rfl⟩ := ih found
      refine ⟨i + 1, columns, there, different, fun j before => ?_, ?_⟩
      · cases j with
        | zero => exact congrArg some same
        | succ j => exact earlier j (Nat.lt_of_succ_lt_succ before)
      · rw [Nat.add_assoc, Nat.add_comm 1 i]
    · rw [if_neg (mt sameNames_iff.mp same)] at found
      cases found
      exact ⟨0, own, rfl, same, fun j before => absurd before (Nat.not_lt_zero j), rfl⟩

section Check

variable {id : NodeId} {into : Node Table} {rows : Tree (.list (.list .assignment))}
  {first : Tree (.list .assignment)} {rest : List (Tree (.list .assignment))}

/-- A bulk insert is judged by the names of its columns alone. -/
theorem Tree.validate_bulkInsert :
    (Tree.bulkInsert id into rows).validate =
      (bulkFault into.value.name (rows.toList.map Tree.targetNames)).elim (.ok ())
        fun fault => .error (.malformedBulkInsert fault) := by
  have checked : (Tree.bulkInsert id into rows).validate = validateBulkInsert into.value rows := rfl
  rw [checked, validateBulkInsert]
  cases bulkFault into.value.name (rows.toList.map Tree.targetNames) <;> rfl

/-- A bulk insert with rows is checked against the first of them. -/
theorem Tree.validate_bulkInsert_of_cons (present : rows.toList = first :: rest) :
    (Tree.bulkInsert id into rows).validate =
      (findMismatch first.targetNames 1 (rest.map Tree.targetNames)).elim (.ok ())
        fun fault => .error (.malformedBulkInsert fault) := by
  rw [validate_bulkInsert, present]
  rfl

/-- Accepted are the bulk inserts with at least one row, all of whose rows name the columns of the
first one. -/
theorem Tree.validate_bulkInsert_eq_ok_iff :
    (Tree.bulkInsert id into rows).validate = .ok () ↔
      ∃ first rest, rows.toList = first :: rest ∧
        ∀ row ∈ rest, row.targetNames = first.targetNames := by
  cases present : rows.toList with
  | nil =>
    rw [validate_bulkInsert, present]
    constructor
    · intro accepted
      cases accepted
    · rintro ⟨first, rest, some, -⟩
      cases some
  | cons first rest =>
    have accepted : (Tree.bulkInsert id into rows).validate = .ok () ↔
        findMismatch first.targetNames 1 (rest.map Tree.targetNames) = none := by
      rw [validate_bulkInsert_of_cons present]
      cases findMismatch first.targetNames 1 (rest.map Tree.targetNames) <;> simp
    rw [accepted, findMismatch_eq_none_iff, List.forall_mem_map]
    constructor
    · exact fun same => ⟨first, rest, rfl, same⟩
    · rintro ⟨_, _, split, same⟩
      cases split
      exact same

/-- What is wrong with a bulk insert that has rows is the first row that names other columns. -/
theorem Tree.validate_bulkInsert_eq_error {error : Error} (present : rows.toList = first :: rest)
    (rejected : (Tree.bulkInsert id into rows).validate = .error error) :
    ∃ index row, rows.toList[index]? = some row ∧ row.targetNames ≠ first.targetNames ∧
      (∀ earlier < index, ∃ other, rows.toList[earlier]? = some other ∧
        other.targetNames = first.targetNames) ∧
      error = .malformedBulkInsert (.rowMismatch index row.targetNames first.targetNames) := by
  rw [validate_bulkInsert_of_cons present] at rejected
  cases found : findMismatch first.targetNames 1 (rest.map Tree.targetNames) with
  | none =>
    rw [found] at rejected
    cases rejected
  | some fault =>
    rw [found] at rejected
    cases rejected
    obtain ⟨i, columns, there, different, earlier, rfl⟩ := findMismatch_eq_some found
    rw [List.getElem?_map] at there
    obtain ⟨row, position, rfl⟩ := Option.map_eq_some_iff.mp there
    refine ⟨i + 1, row, ?_, different, fun j before => ?_, ?_⟩
    · rw [present]
      exact position
    · rw [present]
      cases j with
      | zero => exact ⟨first, rfl, rfl⟩
      | succ j =>
        have same := earlier j (Nat.lt_of_succ_lt_succ before)
        rw [List.getElem?_map] at same
        exact Option.map_eq_some_iff.mp same
    · rw [Nat.add_comm 1 i]

end Check

/-! ## What is written -/

/-- A formatter writes a value, with this text. -/
def Formatter.WritesValue (f : Formatter) (flavor : Flavor) (options : FormatOptions)
    (value : Scalar) (text : List Char) : Prop :=
  ∃ g : Formatter,
    f.perform flavor.dialect options ((Operation.visit (.scalar value)).run flavor.dialect) =
        (.ok (), g) ∧
      g.buffer.toList = f.buffer.toList ++ text ++ [' ']

/-- A value that can be written has the text that the grammar gives it. -/
theorem Formatter.writesValue_of_ok {flavor : Flavor} {options : FormatOptions} {f : Formatter}
    {value : Scalar}
    (success : (f.perform flavor.dialect options
      ((Operation.visit (.scalar value)).run flavor.dialect)).1 = .ok ()) :
    f.WritesValue flavor options value (value.render flavor options.layout f.depth) := by
  obtain ⟨g, ran⟩ : ∃ g, f.perform flavor.dialect options
      ((Operation.visit (.scalar value)).run flavor.dialect) = (.ok (), g) :=
    ⟨_, Prod.ext success rfl⟩
  refine ⟨g, ran, ?_⟩
  have grammar : Script.Writes flavor options f.depth value.script
      (value.render flavor options.layout f.depth) :=
    value.writes_script flavor options f.depth
  rw [Operation.run, Subject.write, perform_script] at ran
  rw [List.append_assoc]
  exact (grammar f.buffer.toList f g rfl rfl ran).1

theorem Trace.going_join {traces : List Trace} (going : ∀ trace ∈ traces, trace.error = none) :
    (Trace.join traces).error = none := by
  induction traces with
  | nil => rfl
  | cons trace rest ih =>
    obtain ⟨first, others⟩ := List.forall_mem_cons.mp going
    rw [join, append_of_going first]
    exact ih others

/-- A list is rendered member by member. -/
theorem Tree.render_list (flavor : Flavor) (layout : Layout) (depth : Nat) :
    {c : Category} → (nodes : Tree (.list c)) →
      (nodes.render flavor layout depth : List (Rendered c)) =
        nodes.toList.map (Tree.render flavor layout depth)
  | _, .nil => rfl
  | _, .cons head tail =>
    congrArg (head.render flavor layout depth :: ·) (tail.render_list flavor layout depth)

/-- The texts of the values of some rows, in brackets. -/
def valueTuples (tuples : List (List (List Char))) : List Char :=
  Grammar.listed (tuples.map fun values => Grammar.bracketed (Grammar.listed values))

section Rows

variable {flavor : Flavor} {options : FormatOptions} {f : Formatter}
  {rows : Tree (.list (.list .assignment))}

/-- If all values can be written, so can the rows. -/
theorem Script.going_insertRows (into : Table)
    (written : ∀ row ∈ rows.toList, ∀ entry ∈ row.toList,
      (f.perform flavor.dialect options
        ((Operation.visit (.scalar entry.assigned)).run flavor.dialect)).1 = .ok ()) :
    (Script.trace flavor (insertRows into rows.script)).error = none := by
  rw [trace_insertRows, rows.script_list, List.map_map]
  refine Trace.going_join (List.forall_mem_map.mpr fun row inRows => ?_)
  rw [Function.comp_apply, row.script_list, List.map_map]
  refine Trace.going_join (List.forall_mem_map.mpr fun entry inRow => ?_)
  obtain ⟨g, success, -⟩ := Formatter.writesValue_of_ok (written row inRows entry inRow)
  rw [Operation.run, Subject.write, perform_script] at success
  rw [Function.comp_apply, entry.value_script]
  exact (Action.exec_ok success).1

/-- The text of some rows, from the texts of their values. -/
theorem Tree.render_insertRows (into : Table) (layout : Layout) (depth : Nat)
    {first : Tree (.list .assignment)} {rest : List (Tree (.list .assignment))}
    (present : rows.toList = first :: rest) :
    Grammar.insertRows flavor into (rows.render flavor layout depth) =
      ["INSERT INTO".toList, Grammar.tableName flavor into,
        Grammar.columnNames flavor first.targets, "VALUES".toList,
        valueTuples (rows.toList.map fun row => row.toList.map fun entry =>
          entry.assigned.render flavor layout depth)] := by
  have columns : (first.render flavor layout depth : List Assigned).map Assigned.column =
      first.targets := by
    rw [first.render_list, List.map_map]
    refine List.map_congr_left fun entry _ => ?_
    cases entry
    rfl
  have values (row : Tree (.list .assignment)) :
      (row.render flavor layout depth : List Assigned).map Assigned.value =
        row.toList.map fun entry => entry.assigned.render flavor layout depth := by
    rw [row.render_list, List.map_map]
    refine List.map_congr_left fun entry _ => ?_
    cases entry
    rfl
  have tuples : (rows.render flavor layout depth : List (List Assigned)).map Grammar.rowValues =
      (rows.toList.map fun row => row.toList.map fun entry =>
        entry.assigned.render flavor layout depth).map
          fun values => Grammar.bracketed (Grammar.listed values) := by
    rw [rows.render_list, List.map_map, List.map_map]
    refine List.map_congr_left fun row _ => ?_
    exact congrArg (fun values => Grammar.bracketed (Grammar.listed values)) (values row)
  rw [Grammar.insertRows, Grammar.listIfAny, tuples, rows.render_list, present]
  exact congrArg (fun names => ["INSERT INTO".toList, Grammar.tableName flavor into,
    Grammar.columnNames flavor names, "VALUES".toList, _]) columns

/-- Rows that do not pass the check are reported, and nothing else is done. -/
theorem perform_bulkInsert_of_error (flavor : Flavor) (options : FormatOptions) {id : NodeId}
    {into : Node Table} {error : Error}
    (rejected : (Tree.bulkInsert id into rows).validate = .error error) (f : Formatter) :
    f.perform flavor.dialect options
        ((Operation.extension (.bulkInsert id into rows)).run flavor.dialect) =
      (.error error,
        { f with events := f.events.push (.rejectedBulkInsert into.value.name error) }) := by
  have checked : validateBulkInsert into.value rows = .error error := rejected
  rw [Operation.run, perform_script, Tree.script, checked]
  rfl

/-- Rows that pass the check are written if all their values can be. -/
theorem perform_bulkInsert_of_ok {id : NodeId} {into : Node Table}
    {first : Tree (.list .assignment)} {rest : List (Tree (.list .assignment))}
    (accepted : (Tree.bulkInsert id into rows).validate = .ok ())
    (present : rows.toList = first :: rest)
    (written : ∀ row ∈ rows.toList, ∀ entry ∈ row.toList,
      (f.perform flavor.dialect options
        ((Operation.visit (.scalar entry.assigned)).run flavor.dialect)).1 = .ok ()) :
    ∃ g : Formatter,
      f.perform flavor.dialect options
          ((Operation.extension (.bulkInsert id into rows)).run flavor.dialect) = (.ok (), g) ∧
        g.buffer.toList = f.buffer.toList ++
          (Grammar.phrase ["INSERT INTO".toList, Grammar.tableName flavor into.value,
            Grammar.columnNames flavor first.targets, "VALUES".toList,
            valueTuples (rows.toList.map fun row => row.toList.map fun entry =>
              entry.assigned.render flavor options.layout f.depth)] ++ [' ']) ∧
        g.depth = f.depth := by
  have checked : validateBulkInsert into.value rows = .ok () := accepted
  have script : (Tree.bulkInsert id into rows).script =
      Script.insertRows into.value rows.script := by
    rw [Tree.script, checked]
    rfl
  have neutral : Script.DepthNeutral flavor (Tree.bulkInsert id into rows).script :=
    (Tree.bulkInsert id into rows).depthNeutral_script flavor
  have grammar : Script.Writes flavor options f.depth (Tree.bulkInsert id into rows).script
      (Grammar.phrase (Grammar.insertRows flavor into.value
        (rows.render flavor options.layout f.depth))) :=
    (Tree.bulkInsert id into rows).writes_script flavor options f.depth
  have result := neutral.result options f
  rw [Trace.result_eq, script, Script.going_insertRows into.value written, ← script] at result
  obtain ⟨g, success⟩ : ∃ g, f.perform flavor.dialect options
      (Script.run flavor.dialect (Tree.bulkInsert id into rows).script) = (.ok (), g) :=
    ⟨_, Prod.ext result rfl⟩
  refine ⟨g, success, ?_⟩
  rw [perform_script] at success
  rw [← Tree.render_insertRows into.value options.layout f.depth present]
  exact grammar f.buffer.toList f g rfl rfl success

/-- All rows of a bulk insert that is accepted have as many values as the first one has columns. -/
theorem Tree.length_rows_of_ok {id : NodeId} {into : Node Table}
    {first : Tree (.list .assignment)} {rest : List (Tree (.list .assignment))}
    (accepted : (Tree.bulkInsert id into rows).validate = .ok ())
    (present : rows.toList = first :: rest) :
    ∀ row ∈ rows.toList, row.toList.length = first.targets.length := by
  obtain ⟨_, _, split, same⟩ := Tree.validate_bulkInsert_eq_ok_iff.mp accepted
  cases present.symm.trans split
  have count (row : Tree (.list .assignment)) (names : row.targetNames = first.targetNames) :
      row.toList.length = first.targets.length := by
    have counted := congrArg List.length names
    rw [Tree.targetNames, Tree.targetNames, List.length_map, List.length_map, Tree.targets,
      List.length_map] at counted
    exact counted
  rw [present, List.forall_mem_cons]
  exact ⟨count first rfl, fun row member => count row (same row member)⟩

end Rows

/-- **Bulk inserts are checked exactly and written as a whole.** A bulk insert is accepted if and
only if it has at least one row and every row names the columns of the first one, in the same order,
whatever their qualifiers and types. If it has rows and is not accepted, the error names the first
row with other columns, and both lists of names. Whatever a formatter has done so far, a bulk insert
that is not accepted fails with that error and leaves text, parameters and depth alone; one that is
accepted, and all of whose values can be written, is written as one list of columns and one tuple
for each row, in the order of the rows, each with as many values as there are columns. The text of a
value is what is written for that value alone. -/
theorem bulk_insert_checked (flavor : Flavor) (options : FormatOptions) (id : NodeId)
    (into : Node Table) (rows : Tree (.list (.list .assignment))) :
    ((Tree.bulkInsert id into rows).validate = .ok () ↔
        ∃ first rest, rows.toList = first :: rest ∧
          ∀ row ∈ rest, row.targetNames = first.targetNames) ∧
      (∀ first rest error, rows.toList = first :: rest →
        (Tree.bulkInsert id into rows).validate = .error error →
          ∃ index row, rows.toList[index]? = some row ∧ row.targetNames ≠ first.targetNames ∧
            (∀ earlier < index, ∃ other, rows.toList[earlier]? = some other ∧
              other.targetNames = first.targetNames) ∧
            error = .malformedBulkInsert
              (.rowMismatch index row.targetNames first.targetNames) ∧
            error.message = "malformed bulk insert: row " ++ toString index ++ " assigns ("
              ++ ", ".intercalate row.targetNames ++ ") but row 0 assigns ("
              ++ ", ".intercalate first.targetNames ++ ")") ∧
      ∀ f : Formatter,
        (∀ error, (Tree.bulkInsert id into rows).validate = .error error →
          f.perform flavor.dialect options
              ((Operation.extension (.bulkInsert id into rows)).run flavor.dialect) =
            (.error error,
              { f with events := f.events.push (.rejectedBulkInsert into.value.name error) })) ∧
          ∀ first rest, rows.toList = first :: rest →
            (Tree.bulkInsert id into rows).validate = .ok () →
            (∀ row ∈ rows.toList, ∀ entry ∈ row.toList,
              (f.perform flavor.dialect options
                ((Operation.visit (.scalar entry.assigned)).run flavor.dialect)).1 = .ok ()) →
            ∃ (text : Scalar → List Char) (g : Formatter),
              (∀ row ∈ rows.toList, ∀ entry ∈ row.toList,
                f.WritesValue flavor options entry.assigned (text entry.assigned)) ∧
              f.perform flavor.dialect options
                  ((Operation.extension (.bulkInsert id into rows)).run flavor.dialect) =
                (.ok (), g) ∧
              g.buffer.toList = f.buffer.toList ++
                (Grammar.phrase ["INSERT INTO".toList, Grammar.tableName flavor into.value,
                  Grammar.columnNames flavor first.targets, "VALUES".toList,
                  valueTuples (rows.toList.map fun row => row.toList.map fun entry =>
                    text entry.assigned)] ++ [' ']) ∧
              g.depth = f.depth ∧
              ∀ row ∈ rows.toList, row.toList.length = first.targets.length := by
  refine ⟨Tree.validate_bulkInsert_eq_ok_iff, ?_, fun f => ⟨?_, ?_⟩⟩
  · intro first rest error present rejected
    obtain ⟨index, row, there, different, earlier, rfl⟩ :=
      Tree.validate_bulkInsert_eq_error present rejected
    exact ⟨index, row, there, different, earlier, rfl, rfl⟩
  · intro error rejected
    exact perform_bulkInsert_of_error flavor options rejected f
  · intro first rest present accepted written
    obtain ⟨g, success, text, depth⟩ := perform_bulkInsert_of_ok accepted present written
    refine ⟨Tree.render flavor options.layout f.depth, g, ?_, success, text, depth,
      Tree.length_rows_of_ok accepted present⟩
    exact fun row inRows entry inRow => Formatter.writesValue_of_ok (written row inRows entry inRow)

def stockRows (value : Scalar) (rows : List (List Column)) : Tree (.list (.list .assignment)) :=
  .ofList (rows.map fun columns => .ofList (columns.map fun c => .assign 3 ⟨2, c⟩ value))

theorem stockRows_assigned (value : Scalar) (rows : List (List Column)) :
    ∀ row ∈ (stockRows value rows).toList, ∀ entry ∈ row.toList, entry.assigned = value := by
  simp only [stockRows, Tree.toList_ofList, List.forall_mem_map]
  exact fun _ _ _ _ => rfl

/-- A qualifier makes no difference, another order of the columns does. -/
theorem bulk_insert_checked_stock :
    let amount : Scalar := .argument ⟨1, { value := .text "12", type := .text }⟩
    let title : Column := { name := "title", type := .text }
    let price : Column := { name := "price", type := .text }
    let write (rows : List (List Column)) : Outcome Unit :=
      Formatter.perform { depth := 1 } Flavor.mysql.dialect {}
        ((Operation.extension (.bulkInsert 4 ⟨0, { name := "stock" }⟩
          (stockRows amount rows))).run Flavor.mysql.dialect)
    (∃ g : Formatter,
        write [[title, price], [{ title with table := some "s" }, price]] = (.ok (), g) ∧
          g.buffer.toList =
            ("INSERT INTO \x60stock\x60 (\x60title\x60, \x60price\x60) "
              ++ "VALUES (?, ?), (?, ?) ").toList) ∧
      ∃ error : Error, error.message =
          "malformed bulk insert: row 2 assigns (price, title) but row 0 assigns (title, price)" ∧
        write [[title, price], [title, price], [price, title]] =
          (.error error, { depth := 1, events := #[.rejectedBulkInsert "stock" error] }) := by
  intro amount title price write
  constructor
  · have fine : ∀ row ∈ (stockRows amount [[title, price],
        [{ title with table := some "s" }, price]]).toList, ∀ entry ∈ row.toList,
        (Formatter.perform { depth := 1 } Flavor.mysql.dialect {}
          ((Operation.visit (.scalar entry.assigned)).run Flavor.mysql.dialect)).1 = .ok () := by
      intro row inRows entry inRow
      rw [stockRows_assigned amount _ row inRows entry inRow]
      rfl
    obtain ⟨text, g, each, success, written, -, -⟩ :=
      ((bulk_insert_checked .mysql {} 4 ⟨0, { name := "stock" }⟩ (stockRows amount
        [[title, price], [{ title with table := some "s" }, price]])).2.2 { depth := 1 }).2
        _ _ rfl rfl fine
    refine ⟨g, success, ?_⟩
    have placeholder : text amount = ['?'] := by
      obtain ⟨h, ran, appended⟩ := each _ List.mem_cons_self _ List.mem_cons_self
      have alone : h.buffer.toList = ['?'] ++ [' '] :=
        congrArg (fun outcome => outcome.2.buffer.toList) ran.symm
      exact List.append_cancel_right (appended.symm.trans alone)
    have both : g.buffer.toList = Grammar.phrase ["INSERT INTO".toList,
        Grammar.tableName .mysql { name := "stock" }, Grammar.columnNames .mysql [title, price],
        "VALUES".toList, valueTuples [[text amount, text amount], [text amount, text amount]]]
          ++ [' '] := written
    rw [both, placeholder]
    decide +kernel
  · refine ⟨.malformedBulkInsert (.rowMismatch 2 ["price", "title"] ["title", "price"]), by
      decide +kernel, ?_⟩
    exact ((bulk_insert_checked .mysql {} 4 ⟨0, { name := "stock" }⟩ (stockRows amount
      [[title, price], [title, price], [price, title]])).2.2 { depth := 1 }).1 _ rfl

end SqlTree
