import SqlTree.Format.Event
import SqlTree.Format.Options
import SqlTree.Text
import SqlTree.Tree.Basic

/-!
# The formatter and its elementary operations

A formatter holds the text written so far, the parameters collected for its placeholders, the
depth of nesting and the events reported. An operation that fails keeps what it has already done,
so the state is returned beside the error.

Every token is written with one blank behind it. Where a blank is not wanted, the next operation
takes it back.
-/

namespace SqlTree

/-- What stays fixed while a formatter works. -/
structure Style where
  /-- The name of the dialect. -/
  dialect : String
  quoteIdentifier : String → String
  options : FormatOptions

structure Formatter where
  buffer : Buffer := {}
  parameters : Array Argument := #[]
  depth : Nat := 0
  events : Array Event := #[]
  deriving DecidableEq, Repr

abbrev FormatM := ReaderT Style (ExceptT Error (StateM Formatter))

/-- Where a new line stands: one level deeper, one level less deep, or at the same depth. -/
inductive Shift where
  | inner
  | outer
  | same
  deriving DecidableEq, Repr

namespace Formatter

def write (text : String) : FormatM Unit :=
  modify fun f => { f with buffer := f.buffer.append text.toList }

def writeKeyword (text : String) : FormatM Unit :=
  write (text ++ " ")

def writeQuoted (name : String) : FormatM Unit := do
  write ((← read).quoteIdentifier name)

/-- Takes back one blank at the end, if there is one. -/
def dropBlank : FormatM Unit :=
  modify fun f => { f with buffer := f.buffer.dropBlank }

/-- Writes a placeholder and collects the parameter that belongs to it. -/
def writePlaceholder (argument : Argument) : FormatM Unit := do
  modify fun f => { f with parameters := f.parameters.push argument }
  writeKeyword "?"

def report (event : Event) : FormatM Unit :=
  modify fun f => { f with events := f.events.push event }

/-- The depth after a shift; there is none above the outermost level. -/
def shiftDepth : Shift → Nat → Option Nat
  | .inner, depth => some (depth + 1)
  | .outer, 0 => none
  | .outer, depth + 1 => some depth
  | .same, depth => some depth

/-- Shifts the depth and, when beautifying, breaks the line and indents the next one. -/
def newLine (shift : Shift) : FormatM Unit := do
  match shiftDepth shift (← get).depth with
  | none => throw .indentUnderflow
  | some depth =>
    modify fun f => { f with depth }
    let options := (← read).options
    if options.beautify then
      dropBlank
      modify fun f =>
        { f with buffer := f.buffer.append ('\n' :: .replicate (options.indentWidth depth) ' ') }

end Formatter

end SqlTree
