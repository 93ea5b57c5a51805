import SqlTree.Script.Run
import SqlTree.Script.Tree
import SqlTree.Text

/-!
# Formatting statements

A statement is formatted by running its script. The text is the one written, without white space
at its ends, and goes with the parameters for its placeholders.
-/

namespace SqlTree

structure Formatted where
  sql : String
  parameters : List Argument
  deriving DecidableEq, Repr

namespace Formatter

def sql (formatter : Formatter) : String :=
  formatter.buffer.text

def perform {α : Type} (formatter : Formatter) (dialect : Dialect) (options : FormatOptions)
    (operation : FormatM α) : Except Error α × Formatter :=
  ((operation.run (dialect.style options)).run).run formatter

/-- The result of a formatter that has written a statement. -/
def result (formatter : Formatter) : Formatted where
  sql := .ofList (Blank.trim formatter.buffer.toList)
  parameters := formatter.parameters.toList

/-- Writes a statement behind what is already written, and reports the result. -/
def formatStatement (dialect : Dialect) (statement : Statement) : FormatM Formatted := do
  Script.run dialect statement.script
  let formatted := (← get).result
  report (.formatted (← read).dialect statement.kind formatted.sql.utf8ByteSize
    formatted.parameters.length)
  return formatted

end Formatter

/-- Formats a statement, and returns the final state of the formatter beside the result. -/
def formatWithState (dialect : Dialect) (options : FormatOptions) (statement : Statement) :
    Except Error Formatted × Formatter :=
  Formatter.perform {} dialect options (Formatter.formatStatement dialect statement)

def format (dialect : Dialect) (options : FormatOptions) (statement : Statement) :
    Except Error Formatted :=
  (formatWithState dialect options statement).1

end SqlTree
