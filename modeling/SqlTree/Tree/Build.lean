import SqlTree.Tree.Kind

/-!
# Building scalars

Builders that work out the declared type of a node from its parts. The identity of the new node
comes first, as for every constructor.
-/

namespace SqlTree

namespace Tree

def ofBinary (id : NodeId) (op : BinaryOperator) (left right : Scalar) : Scalar :=
  .binary id op left right (op.resultType left.sqlType)

def ofUnary (id : NodeId) (op : UnaryOperator) (operand : Scalar) : Scalar :=
  .unary id op operand (op.resultType operand.sqlType)

/-- An aggregate over an expression, or over whole rows. -/
def ofAggregate (id : NodeId) (function : Aggregate) (operand : Option Scalar)
    (distinct : Bool) : Scalar :=
  .aggregate id function (ofOption operand) distinct (function.resultType (operand.map sqlType))

def searchArgument (search : String) : Argument :=
  { value := .text search, type := .varchar none }

/-- A match against a pattern that is bound as a parameter. -/
def ilikePattern (id : NodeId) (left : Scalar) (patternId : NodeId) (pattern : String) :
    Extension :=
  .ilike id left (.argument ⟨patternId, searchArgument pattern⟩)

end Tree

end SqlTree
