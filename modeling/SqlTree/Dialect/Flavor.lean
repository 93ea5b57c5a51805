import SqlTree.Dialect.Basic

/-!
# The built-in dialects

Three flavors of SQL: a generic one without extensions, MySQL, and PostgreSQL. Each extension node
belongs to one flavor, and only that flavor's dialect writes it.
-/

namespace SqlTree

/-- A flavor of SQL that has a built-in dialect. -/
inductive Flavor where
  | generic
  | mysql
  | postgresql
  deriving DecidableEq, Repr

/-- The flavor that an extension node belongs to, if it is one of the built-in ones. -/
def Tree.owner : Extension → Option Flavor
  | .duplicateKeyUpsert .. => some .mysql
  | .bulkInsert .. => some .mysql
  | .naturalJoin .. => some .mysql
  | .matchAgainst .. => some .mysql
  | .ilike .. => some .postgresql
  | .conflictUpsert .. => some .postgresql
  | .foreign .. => none

def writeOffsetLimit (query : Query) : FormatM Unit := do
  Formatter.writeKeyword "OFFSET"
  Formatter.writePlaceholder query.page.offsetArgument
  Formatter.writeKeyword "LIMIT"
  Formatter.writePlaceholder query.page.limitArgument

/-- Writes a page as a limit with the offset in front of it. -/
def writeLimit (query : Query) : FormatM Unit := do
  Formatter.writeKeyword "LIMIT"
  Formatter.writePlaceholder query.page.offsetArgument
  Formatter.dropBlank
  Formatter.write ", "
  Formatter.writePlaceholder query.page.limitArgument

namespace Flavor

def name : Flavor → String
  | .generic => "generic"
  | .mysql => "mysql"
  | .postgresql => "postgresql"

def quote : Flavor → Char
  | .mysql => '\x60'
  | _ => '"'

def owns (flavor : Flavor) (node : Extension) : Bool :=
  node.owner == some flavor

/-- Writes the nodes that belong to a flavor in their usual form, and refuses the others. -/
def writeExtension (flavor : Flavor) (node : Extension) (usual : FormatM Unit) :
    FormatM Extension := do
  if flavor.owns node then
    usual
    return node
  else throw (.unsupportedNode node.kind)

def writePage : Flavor → Query → FormatM Unit
  | .mysql => writeLimit
  | _ => writeOffsetLimit

def dialect (flavor : Flavor) : Dialect where
  name := flavor.name
  quote := flavor.quote
  writeExtension := flavor.writeExtension
  writePage := flavor.writePage

end Flavor

end SqlTree
