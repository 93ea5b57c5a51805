import SqlTree.Calendar
import SqlTree.Number.Binary

/-!
# SQL values

The values that are bound to placeholders, and the conversion of ordinary data into them.
-/

namespace SqlTree

inductive Value where
  | null
  | bool (b : Bool)
  | int (n : Int64)
  | float (x : Binary64)
  | text (s : String)
  | blob (bytes : Array UInt8)
  | date (d : Date)
  | time (t : Time)
  | timestamp (t : Timestamp)
  deriving DecidableEq, Repr

namespace Value

def isNull : Value → Bool
  | .null => true
  | _ => false

def int? : Value → Option Int64
  | .int n => some n
  | _ => none

def text? : Value → Option String
  | .text s => some s
  | _ => none

/-- Equality as values: floating point numbers are compared as numbers, all else by content. -/
def equal : Value → Value → Bool
  | .float x, .float y => x.numEq y
  | a, b => a == b

end Value

class ToValue (α : Type) where
  /-- The value that stands for a piece of data. -/
  toValue : α → Value

export ToValue (toValue)

instance : ToValue Value := ⟨id⟩
instance : ToValue Bool := ⟨.bool⟩
instance : ToValue Int64 := ⟨.int⟩
instance : ToValue Int32 := ⟨fun n => .int n.toInt64⟩
instance : ToValue Int16 := ⟨fun n => .int n.toInt64⟩
instance : ToValue Int8 := ⟨fun n => .int n.toInt64⟩
instance : ToValue UInt32 := ⟨fun n => .int (.ofNat n.toNat)⟩
instance : ToValue UInt16 := ⟨fun n => .int (.ofNat n.toNat)⟩
instance : ToValue UInt8 := ⟨fun n => .int (.ofNat n.toNat)⟩
instance : ToValue Binary64 := ⟨.float⟩
instance : ToValue Binary32 := ⟨fun x => .float x.widen⟩
instance : ToValue String := ⟨.text⟩
instance : ToValue (Array UInt8) := ⟨.blob⟩
instance : ToValue Date := ⟨.date⟩
instance : ToValue Time := ⟨.time⟩
instance : ToValue Timestamp := ⟨.timestamp⟩

/-- Absent data is the null value. -/
instance {α : Type} [ToValue α] : ToValue (Option α) where
  toValue
    | none => .null
    | some a => toValue a

end SqlTree
