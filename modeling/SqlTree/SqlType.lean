/-!
# SQL types

The types a scalar expression can declare, and the names under which they are written.
-/

namespace SqlTree

/-- A declared SQL type. Types outside the standard list are named freely by `custom`. -/
inductive SqlType where
  | boolean
  | int
  | long
  | float
  | double
  | decimal (precision scale : Option Nat)
  | varchar (length : Option Nat)
  | text
  | blob
  | date
  | time
  | timestamp
  | custom (name : String)
  deriving DecidableEq, Repr

namespace SqlType

/-- The name of a type in SQL. A decimal shows its scale only after a precision. -/
def name : SqlType → String
  | .boolean => "BOOLEAN"
  | .int => "INT"
  | .long => "BIGINT"
  | .float => "FLOAT"
  | .double => "DOUBLE"
  | .decimal none _ => "DECIMAL"
  | .decimal (some precision) none => s!"DECIMAL({precision})"
  | .decimal (some precision) (some scale) => s!"DECIMAL({precision}, {scale})"
  | .varchar none => "VARCHAR"
  | .varchar (some length) => s!"VARCHAR({length})"
  | .text => "TEXT"
  | .blob => "BLOB"
  | .date => "DATE"
  | .time => "TIME"
  | .timestamp => "TIMESTAMP"
  | .custom name => name

end SqlType

end SqlTree
