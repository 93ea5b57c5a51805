import SqlTree.Proofs.Text.Quoting
import SqlTree.Proofs.Text.Word
import SqlTree.Proofs.Tree.Shown

/-!
# Reading operator expressions

A reader for the texts of operator expressions: columns, placeholders, operators, `BETWEEN`, `IN`
over values, aggregates, calls and casts. It goes from left to right, decides by what comes next,
and never goes back. What it returns is a tree as its text shows it, with the rest of the text.

The reader has a budget that bounds how deep it goes; every expression can be read with a large
enough one.
-/

namespace SqlTree

def BinaryOperator.all : List BinaryOperator :=
  [.plus, .minus, .times, .div, .rem, .like, .notLike, .and, .or, .xor, .lessThan,
    .lessThanOrEqual, .greaterThan, .greaterThanOrEqual, .equal, .notEqual]

def Aggregate.all : List Aggregate :=
  [.min, .max, .avg, .sum, .count]

/-- What links the first operand of an expression to what follows. -/
inductive Link where
  /-- An operator behind its only operand. -/
  | follows (op : UnaryOperator)
  /-- An operator between two operands. -/
  | joins (op : BinaryOperator)
  | between (negated : Bool)
  | among (negated : Bool)
  deriving DecidableEq

namespace Link

/-- How a link is written, with the blanks around it. -/
def spelling : Link → List Char
  | .follows op => ' ' :: op.symbol.toList
  | .joins op => ' ' :: op.symbol.toList ++ [' ']
  | .between negated => (if negated then " NOT BETWEEN " else " BETWEEN ").toList
  | .among negated => (if negated then " NOT IN (" else " IN (").toList

def all : List Link :=
  [.follows .isNull, .follows .isNotNull] ++ BinaryOperator.all.map .joins
    ++ [.between false, .between true, .among false, .among true]

end Link

namespace Reading

def strip : List Char → List Char → Option (List Char)
  | [], text => some text
  | _ :: _, [] => none
  | c :: expected, d :: text => if c = d then strip expected text else none

def keyword (word : String) (text : List Char) : Option (List Char) :=
  match Word.split text with
  | (found, ' ' :: rest) => if found = word.toList then some rest else none
  | _ => none

def closing : List Char → Option (List Char)
  | ')' :: rest => some rest
  | _ => none

def leadingOperator : List Char → Option (UnaryOperator × List Char)
  | '-' :: ' ' :: rest => some (.minus, rest)
  | '+' :: ' ' :: rest => some (.plus, rest)
  | text => (keyword "NOT" text).map fun rest => (.not, rest)

def link (text : List Char) : Option (Link × List Char) :=
  Link.all.findSome? fun link => (strip link.spelling text).map fun rest => (link, rest)

def column (quote : Char) (text : List Char) : Option (Column × List Char) := do
  let (first, rest) ← Quoted.read quote text
  match rest with
  | '.' :: rest =>
    let (second, rest) ← Quoted.read quote rest
    return ({ table := some (.ofList first), name := .ofList second, type := .boolean }, rest)
  | _ => return ({ name := .ofList first, type := .boolean }, rest)

/-- Reads the name of a type with the closing bracket of its cast. The name may end in a bracketed
size of its own. -/
def typeName (text : List Char) : Option (List Char × List Char) :=
  match Word.split text with
  | (word, ')' :: rest) => some (word, rest)
  | (word, '(' :: rest) =>
    match rest.dropWhile (· ≠ ')') with
    | ')' :: ')' :: behind => some (word ++ '(' :: rest.takeWhile (· ≠ ')') ++ [')'], behind)
    | _ => none
  | _ => none

def aggregate (word : List Char) : Option Aggregate :=
  Aggregate.all.find? fun function => function.symbol.toList = word

def single : Tree (.list .scalar) → Option Scalar
  | .nil => none
  | .cons only .nil => some only
  | .cons _ (.cons _ _) => none

mutual

/-- Reads an expression as far as it goes. -/
@[simp]
def scalar (quote : Char) : Nat → List Char → Option (Scalar × List Char)
  | 0, _ => none
  | budget + 1, text =>
    match leadingOperator text with
    | some (op, rest) => do
      let (inner, rest) ← operand quote budget rest
      return (.unary 0 op inner .boolean, rest)
    | none => do
      let (first, rest) ← operand quote budget text
      continued quote budget first rest

/-- Reads what follows the first operand of an expression. -/
@[simp]
def continued (quote : Char) : Nat → Scalar → List Char → Option (Scalar × List Char)
  | 0, _, _ => none
  | budget + 1, first, text =>
    match link text with
    | none => some (first, text)
    | some (.follows op, rest) => some (.unary 0 op first .boolean, rest)
    | some (.joins op, rest) => do
      let (second, rest) ← operand quote budget rest
      return (.binary 0 op first second .boolean, rest)
    | some (.between negated, rest) => do
      let (lower, rest) ← operand quote budget rest
      let rest ← strip " AND ".toList rest
      let (upper, rest) ← operand quote budget rest
      return (.between 0 first lower upper negated, rest)
    | some (.among negated, rest) => do
      let (values, rest) ← items quote budget rest
      let rest ← closing rest
      return (.inValues 0 first values negated, rest)

/-- Reads an operand: an expression in brackets, or one that needs none. -/
@[simp]
def operand (quote : Char) : Nat → List Char → Option (Scalar × List Char)
  | 0, _ => none
  | budget + 1, text =>
    match Word.split text with
    | ([], '?' :: rest) => some (.argument ⟨0, Argument.shown⟩, rest)
    | ([], '(' :: rest) => do
      let (inner, rest) ← scalar quote budget rest
      let rest ← closing rest
      return (inner, rest)
    | ([], _) => do
      let (column, rest) ← column quote text
      return (.column ⟨0, column⟩, rest)
    | (word, '(' :: rest) =>
      match aggregate word with
      | some function => aggregated quote budget function rest
      | none => called quote budget word rest
    | _ => none

/-- Reads what an aggregate ranges over, behind the opening bracket. -/
def aggregated (quote : Char) : Nat → Aggregate → List Char → Option (Scalar × List Char)
  | 0, _, _ => none
  | budget + 1, function, text =>
    let (distinct, text) := match keyword "DISTINCT" text with
      | some rest => (true, rest)
      | none => (false, text)
    match text with
    | '*' :: rest => do
      let rest ← closing rest
      return (.aggregate 0 function .absent distinct .boolean, rest)
    | _ => do
      let (inner, rest) ← scalar quote budget text
      let rest ← closing rest
      return (.aggregate 0 function (.present inner) distinct .boolean, rest)

/-- Reads the arguments of a call behind the opening bracket, or the content of a cast. -/
def called (quote : Char) : Nat → List Char → List Char → Option (Scalar × List Char)
  | 0, _, _ => none
  | budget + 1, word, text => do
    let (arguments, rest) ← items quote budget text
    match rest with
    | ')' :: rest => return (.call 0 (.ofList word) arguments .boolean, rest)
    | _ =>
      let expr ← single arguments
      let rest ← strip " AS ".toList rest
      let (name, rest) ← typeName rest
      return (.cast 0 expr (.custom (.ofList name)), rest)

/-- Reads expressions with commas between them, up to a closing bracket or another text. -/
def items (quote : Char) : Nat → List Char → Option (Tree (.list .scalar) × List Char)
  | 0, _ => none
  | budget + 1, text =>
    match text with
    | ')' :: _ => some (.nil, text)
    | _ => do
      let (head, rest) ← scalar quote budget text
      match rest with
      | ',' :: ' ' :: rest =>
        let (tail, rest) ← items quote budget rest
        return (.cons head tail, rest)
      | _ => return (.cons head .nil, rest)

end

end Reading

end SqlTree
