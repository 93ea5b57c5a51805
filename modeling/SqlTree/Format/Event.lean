import SqlTree.Error

/-!
# Log events

What a formatter reports while it works. Events are data: each has a level, a message and named
fields.
-/

namespace SqlTree

inductive Level where
  | trace
  | debug
  | warn
  deriving DecidableEq, Repr

inductive Event where
  /-- A statement was formatted to a text of `length` bytes with `parameters` parameters. -/
  | formatted (dialect kind : String) (length parameters : Nat)
  /-- An extension node is about to be handed to the dialect. -/
  | routed (dialect kind : String)
  /-- The dialect handed back another node. -/
  | differentNode (dialect kind : String)
  /-- A bulk insert was rejected. -/
  | rejectedBulkInsert (table : String) (error : Error)
  /-- An upsert was rejected. -/
  | rejectedUpsert (table : String) (error : Error)
  deriving DecidableEq, Repr

namespace Event

def level : Event → Level
  | .formatted .. => .debug
  | .routed .. => .trace
  | .differentNode .. | .rejectedBulkInsert .. | .rejectedUpsert .. => .warn

def message : Event → String
  | .formatted .. => "formatted expression"
  | .routed .. => "routing extension node to dialect"
  | .differentNode .. => "formatter returned a different node"
  | .rejectedBulkInsert .. => "rejecting bulk insert"
  | .rejectedUpsert .. => "rejecting upsert"

def fields : Event → List (String × String)
  | .formatted dialect kind length parameters =>
    [("dialect", dialect), ("kind", kind), ("sql_len", toString length),
      ("parameters", toString parameters)]
  | .routed dialect kind => [("dialect", dialect), ("kind", kind)]
  | .differentNode dialect kind => [("dialect", dialect), ("kind", kind)]
  | .rejectedBulkInsert table error => [("table", table), ("error", error.message)]
  | .rejectedUpsert table error => [("table", table), ("error", error.message)]

end Event

end SqlTree
