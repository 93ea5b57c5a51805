import SqlTree.Format.Formatter
import SqlTree.Tree.Kind

/-!
# Dialects

A dialect decides how identifiers are quoted, how the page of a query is written, and what becomes
of extension nodes. All other nodes are written alike in every dialect.
-/

namespace SqlTree

structure Dialect where
  name : String
  /-- The character around identifiers. -/
  quote : Char := '"'
  /-- Quotes an identifier: between two quote characters, with those inside it doubled, unless a
  dialect has a way of its own. -/
  quoteIdentifier : String → String := Quoted.encode quote
  /-- Writes an extension node and hands it back. The second argument is the node's usual form,
  ready to be written; a dialect may also write something else, or refuse the node. -/
  writeExtension : Extension → FormatM Unit → FormatM Extension :=
    fun node _ => throw (.unsupportedNode node.kind)
  /-- Writes the page of a query that has one. -/
  writePage : Query → FormatM Unit

def Dialect.style (dialect : Dialect) (options : FormatOptions) : Style :=
  { dialect := dialect.name, quoteIdentifier := dialect.quoteIdentifier, options }

end SqlTree
