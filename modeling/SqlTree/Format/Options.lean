/-!
# Layout options

Whether the text is laid out on several lines, and how deep its nested parts are indented.
-/

namespace SqlTree

structure FormatOptions where
  /-- Whether clauses start on lines of their own. -/
  beautify : Bool := false
  /-- The number of blanks per level of nesting. -/
  indentSize : UInt64 := 2
  deriving DecidableEq, Repr

namespace FormatOptions

/-- A level of nesting is never indented by more blanks than this. -/
def maxIndentSize : Nat := 16

def compact : FormatOptions := {}

/-- Several lines, with a given number of blanks per level. -/
def pretty (indentSize : UInt64) : FormatOptions :=
  { beautify := true, indentSize }

def indentStep (options : FormatOptions) : Nat :=
  min options.indentSize.toNat maxIndentSize

/-- The number of blanks before a line at some depth, at most the greatest 64-bit number. -/
def indentWidth (options : FormatOptions) (depth : Nat) : Nat :=
  min (depth * options.indentStep) (UInt64.size - 1)

end FormatOptions

end SqlTree
