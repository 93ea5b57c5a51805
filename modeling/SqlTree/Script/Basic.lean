import SqlTree.Format.Event
import SqlTree.Format.Formatter
import SqlTree.Tree.Kind

/-!
# Scripts

A script is the list of steps by which a tree is written. It depends on the tree alone: what a
dialect and the layout options decide is left to the formatter that runs the script. So a law about
what is written, collected, reported or refused is a law about lists of steps.
-/

namespace SqlTree

inductive Step where
  /-- Write a text as it is. -/
  | text (s : String)
  /-- Write a quoted identifier, without a blank. -/
  | identifier (name : String)
  /-- Take back one blank at the end. -/
  | dropBlank
  /-- Go on in a new line. -/
  | newLine (shift : Shift)
  /-- Write a placeholder for a parameter. -/
  | placeholder (argument : Argument)
  /-- Let the dialect write the page of a query. -/
  | page (query : Query)
  /-- Let the dialect write an extension node whose usual form is a script of its own. -/
  | extension (node : Extension) (usual : List Step)
  /-- Give up without a report. -/
  | refuse (error : Error)
  /-- Report an event and give up. -/
  | reject (event : Event) (error : Error)

abbrev Script := List Step

namespace Script

/-! ## Elementary scripts -/

def keyword (s : String) : Script :=
  [.text (s ++ " ")]

def identifier (name : String) : Script :=
  [.identifier name, .text " "]

/-- A quoted identifier in front of the identifier that it qualifies. -/
def qualifier (name : String) : Script :=
  [.identifier name, .text "."]

def keywordIf (condition : Bool) (s : String) : Script :=
  if condition then keyword s else []

def optional {α : Type} (script : α → Script) : Option α → Script
  | none => []
  | some a => script a

def separated : List Script → Script
  | [] => []
  | [script] => script
  | script :: rest => script ++ [.dropBlank, .text ", "] ++ separated rest

/-- A group in brackets; the closing one takes the place of the last blank. -/
def group (script : Script) : Script :=
  .text "(" :: script ++ [.dropBlank, .text ") "]

def tuple (values : List Script) : Script :=
  group (separated values)

/-- An operand, bracketed if its node asks for it. -/
def operand (node : Scalar) (script : Script) : Script :=
  if node.needsBrackets then group script else script

/-- A query in brackets, on lines of its own. -/
def nested (query : Script) : Script :=
  [.text "(", .newLine .inner] ++ query ++ [.dropBlank, .newLine .outer, .text ") "]

/-- A script that is run only if a check has passed. -/
def checked (check : Except Error Unit) (event : Error → Event) (script : Script) : Script :=
  match check with
  | .ok () => script
  | .error error => [.reject (event error) error]

/-! ## Clauses -/

def clause (head : String) (script : Script) : Script :=
  .newLine .same :: keyword head ++ script

def optionalClause (head : String) : Option Script → Script :=
  optional (clause head)

/-- A clause over a list, left out when the list is empty. -/
def listClause (head : String) (entries : List Script) : Script :=
  if entries.isEmpty then [] else clause head (separated entries)

/-- The columns of a select; an empty list means all of them. -/
def selection (columns : List Script) : Script :=
  if columns.isEmpty then [.text "* "] else separated columns

def pageClause (query : Query) : Script :=
  if query.page.isPaginated then [.newLine .same, .page query] else []

/-- What an aggregate ranges over; without an operand these are whole rows. -/
def aggregated (operand : Option Script) : Script :=
  operand.getD [.text "*"]

/-! ## Names -/

def column (c : Column) : Script :=
  optional qualifier c.table ++ identifier c.name

def tableName (t : Table) : Script :=
  optional qualifier t.catalog ++ optional qualifier t.schema ++ identifier t.name

def table (t : Table) : Script :=
  tableName t ++ optional identifier t.aliasName

/-- The names of some columns, in brackets and without qualifiers. -/
def columnNames (columns : List Column) : Script :=
  tuple (columns.map fun c => identifier c.name)

end Script

/-! ## Rows -/

/-- What writing makes of an assignment: its column, and the script of its value. -/
structure Setting where
  column : Column
  value : Script

namespace Script

def setting (s : Setting) : Script :=
  identifier s.column.name ++ .text "= " :: s.value

def settings (row : List Setting) : Script :=
  separated (row.map setting)

def rowValues (row : List Setting) : Script :=
  tuple (row.map Setting.value)

/-- The beginning of an insert, up to the values. -/
def insertHead (t : Table) (columns : List Column) : Script :=
  keyword "INSERT INTO" ++ tableName t ++ columnNames columns ++ keyword "VALUES"

def insertRow (t : Table) (row : List Setting) : Script :=
  insertHead t (row.map Setting.column) ++ rowValues row

/-- An insert of several rows that set the columns of the first one. -/
def insertRows (t : Table) (rows : List (List Setting)) : Script :=
  insertHead t ((rows.head?.getD []).map Setting.column) ++ separated (rows.map rowValues)

/-- What is updated when the key of a new row is already there. -/
def duplicateKeyClause (updates : List Setting) : Script :=
  if updates.isEmpty then [] else keyword "ON DUPLICATE KEY UPDATE" ++ settings updates

/-- What is done when a new row clashes with another one on some columns. -/
def conflictClause (conflict : List Column) (updates : List Setting) : Script :=
  if conflict.isEmpty then []
  else keyword "ON CONFLICT" ++ columnNames conflict
    ++ (if updates.isEmpty then keyword "DO NOTHING"
      else keyword "DO UPDATE SET" ++ settings updates)

/-- Assignments one after the other, with nothing between them: each column with its qualifier,
and the value behind it. -/
def settingsInSequence (row : List Setting) : Script :=
  row.flatMap fun s => column s.column ++ s.value

end Script

end SqlTree
