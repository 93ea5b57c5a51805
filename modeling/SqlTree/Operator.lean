import SqlTree.SqlType

/-!
# Operators and keywords

The closed vocabularies of expression trees: operators, aggregate functions, kinds of join and
modes of full text search, each with its spelling in SQL and, for operators, the type of its result.
-/

namespace SqlTree

inductive BinaryOperator where
  | plus
  | minus
  | times
  | div
  | rem
  | like
  | notLike
  | and
  | or
  | xor
  | lessThan
  | lessThanOrEqual
  | greaterThan
  | greaterThanOrEqual
  | equal
  | notEqual
  deriving DecidableEq, Repr

namespace BinaryOperator

def symbol : BinaryOperator → String
  | .plus => "+"
  | .minus => "-"
  | .times => "*"
  | .div => "/"
  | .rem => "%"
  | .like => "LIKE"
  | .notLike => "NOT LIKE"
  | .and => "AND"
  | .or => "OR"
  | .xor => "XOR"
  | .lessThan => "<"
  | .lessThanOrEqual => "<="
  | .greaterThan => ">"
  | .greaterThanOrEqual => ">="
  | .equal => "="
  | .notEqual => "<>"

/-- Whether the operator yields a truth value; only arithmetic does not. -/
def isPredicate : BinaryOperator → Bool
  | .plus | .minus | .times | .div | .rem => false
  | _ => true

/-- The type of a result: boolean for predicates, otherwise that of the left operand. -/
def resultType (op : BinaryOperator) (left : SqlType) : SqlType :=
  if op.isPredicate then .boolean else left

end BinaryOperator

inductive UnaryOperator where
  | isNull
  | isNotNull
  | minus
  | plus
  | not
  deriving DecidableEq, Repr

namespace UnaryOperator

def symbol : UnaryOperator → String
  | .isNull => "IS NULL"
  | .isNotNull => "IS NOT NULL"
  | .minus => "-"
  | .plus => "+"
  | .not => "NOT"

def followsOperand : UnaryOperator → Bool
  | .isNull | .isNotNull => true
  | _ => false

/-- The type of a result: signs keep that of the operand, all else is a truth value. -/
def resultType (op : UnaryOperator) (operand : SqlType) : SqlType :=
  match op with
  | .minus | .plus => operand
  | _ => .boolean

end UnaryOperator

inductive Aggregate where
  | min
  | max
  | avg
  | sum
  | count
  deriving DecidableEq, Repr

namespace Aggregate

def symbol : Aggregate → String
  | .min => "MIN"
  | .max => "MAX"
  | .avg => "AVG"
  | .sum => "SUM"
  | .count => "COUNT"

/-- The type of an aggregate: counts are long, averages double, the others keep the type of their
argument, and without an argument every aggregate is long. -/
def resultType (function : Aggregate) (argument : Option SqlType) : SqlType :=
  match function, argument with
  | .count, _ | _, none => .long
  | .avg, some _ => .double
  | _, some type => type

end Aggregate

inductive JoinKind where
  | cross
  | inner
  | left
  | right
  | full
  deriving DecidableEq, Repr

namespace JoinKind

def keyword : JoinKind → String
  | .cross => "CROSS JOIN"
  | .inner => "INNER JOIN"
  | .left => "LEFT JOIN"
  | .right => "RIGHT JOIN"
  | .full => "FULL JOIN"

end JoinKind

/-- How a full text search reads its search text. -/
inductive SearchModifier where
  | naturalLanguageMode
  | naturalLanguageModeWithQueryExpansion
  | booleanMode
  | withQueryExpansion
  deriving DecidableEq, Repr

namespace SearchModifier

def keyword : SearchModifier → String
  | .naturalLanguageMode => "IN NATURAL LANGUAGE MODE"
  | .naturalLanguageModeWithQueryExpansion => "IN NATURAL LANGUAGE MODE WITH QUERY EXPANSION"
  | .booleanMode => "IN BOOLEAN MODE"
  | .withQueryExpansion => "WITH QUERY EXPANSION"

end SearchModifier

end SqlTree
