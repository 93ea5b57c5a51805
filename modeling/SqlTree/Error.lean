/-!
# Errors

Everything that can stop the formatting or the transformation of a tree, as causes. The wording
is kept in one place, `Error.message`.
-/

namespace SqlTree

inductive BulkFault where
  /-- There is no row at all. -/
  | noRows (table : String)
  /-- Row `row` assigns `columns`, while the first row assigns `expected`. -/
  | rowMismatch (row : Nat) (columns expected : List String)
  deriving DecidableEq, Repr

/-- Why a tree could not be formatted or transformed. -/
inductive Error where
  /-- A dialect handed back another node than the one it was asked to write. -/
  | treeModified (kind : String)
  /-- Nobody knows how to treat a node of this kind. -/
  | unsupportedNode (kind : String)
  /-- The rows of a bulk insert do not fit together. -/
  | malformedBulkInsert (fault : BulkFault)
  /-- An upsert has something to update, but no columns on which to detect a conflict. -/
  | missingConflictTarget (table : String)
  /-- The indentation was taken back below zero. -/
  | indentUnderflow
  deriving DecidableEq, Repr

def joinNames (names : List String) : String :=
  String.intercalate ", " names

def BulkFault.message : BulkFault → String
  | .noRows table => s!"no rows to insert into '{table}'"
  | .rowMismatch row columns expected =>
    let actual := joinNames columns
    let first := joinNames expected
    s!"row {row} assigns ({actual}) but row 0 assigns ({first})"

def Error.message : Error → String
  | .treeModified kind =>
    s!"formatter cannot modify the expression tree (returned a different {kind} node)"
  | .unsupportedNode kind => s!"no formatting rule for node kind {kind}"
  | .malformedBulkInsert fault =>
    let detail := fault.message
    s!"malformed bulk insert: {detail}"
  | .missingConflictTarget table =>
    s!"upsert into '{table}' has update assignments but no conflict columns"
  | .indentUnderflow => "incorrect indent depth: outdented below zero"

end SqlTree
