import SqlTree.Error
import SqlTree.Tree.Basic

/-!
# Validation of inserts

A bulk insert needs at least one row, and all its rows must assign the same columns in the same
order. An upsert that updates needs columns on which a conflict is detected.
-/

namespace SqlTree

namespace Tree

def target : Assignment → Node Column
  | .assign _ node _ => node

def targets (row : Tree (.list .assignment)) : List Column :=
  row.toList.map fun entry => entry.target.value

def targetNames (row : Tree (.list .assignment)) : List String :=
  row.targets.map Column.name

end Tree

/-- Whether two rows name the same columns: they are equally long and agree pair by pair. The pairs
alone would pass a row that goes on behind the end of the other. -/
def sameNames (names expected : List String) : Bool :=
  names.length == expected.length && (names.zip expected).all fun pair => pair.1 == pair.2

/-- The first row, counted from `index`, that does not assign the expected columns. -/
def findMismatch (expected : List String) (index : Nat) : List (List String) → Option BulkFault
  | [] => none
  | columns :: rest =>
    if sameNames columns expected then findMismatch expected (index + 1) rest
    else some (.rowMismatch index columns expected)

/-- What is wrong with the rows of a bulk insert, each given by the names of its columns. -/
def bulkFault (table : String) : List (List String) → Option BulkFault
  | [] => some (.noRows table)
  | first :: rest => findMismatch first 1 rest

/-- Accepts a bulk insert whose rows all assign the columns of the first one. -/
def validateBulkInsert (table : Table) (rows : Tree (.list (.list .assignment))) :
    Except Error Unit :=
  match bulkFault table.name (rows.toList.map Tree.targetNames) with
  | some fault => .error (.malformedBulkInsert fault)
  | none => .ok ()

/-- Accepts an upsert unless it updates and names no conflict columns. -/
def validateConflictTarget (table : Table) (conflict : List (Node Column))
    (updates : Tree (.list .assignment)) : Except Error Unit :=
  if conflict.isEmpty && !updates.toList.isEmpty then .error (.missingConflictTarget table.name)
  else .ok ()

/-- Checks what can be wrong with an extension node by itself. -/
def Tree.validate : Extension → Except Error Unit
  | .bulkInsert _ target rows => validateBulkInsert target.value rows
  | .conflictUpsert _ target _ conflict updates =>
    validateConflictTarget target.value conflict updates
  | _ => .ok ()

end SqlTree
