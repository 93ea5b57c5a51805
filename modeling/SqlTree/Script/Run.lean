import SqlTree.Dialect.Basic
import SqlTree.Script.Basic
import SqlTree.Tree.Identity

/-!
# Running scripts

A formatter runs a script in the style of a dialect. The dialect is asked for the page of a query
and for every extension node; it has to hand back the very node it was given.
-/

namespace SqlTree

/-- Fails unless the dialect handed back the node it was given. -/
def Formatter.ensureSame (given returned : Extension) : FormatM Unit := do
  unless returned.same given do
    report (.differentNode (← read).dialect given.kind)
    throw (.treeModified given.kind)

mutual

def Step.run (dialect : Dialect) : Step → FormatM Unit
  | .text s => Formatter.write s
  | .identifier name => Formatter.writeQuoted name
  | .dropBlank => Formatter.dropBlank
  | .newLine shift => Formatter.newLine shift
  | .placeholder argument => Formatter.writePlaceholder argument
  | .page query => dialect.writePage query
  | .extension node usual => do
    Formatter.report (.routed (← read).dialect node.kind)
    let returned ← dialect.writeExtension node (Script.run dialect usual)
    Formatter.ensureSame node returned
  | .refuse error => throw error
  | .reject event error => do
    Formatter.report event
    throw error

/-- Runs the steps of a script one after the other, up to the first that fails. -/
def Script.run (dialect : Dialect) : List Step → FormatM Unit
  | [] => pure ()
  | step :: rest => do
    step.run dialect
    Script.run dialect rest

end

end SqlTree
