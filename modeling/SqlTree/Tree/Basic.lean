import SqlTree.Operator
import SqlTree.Value

/-!
# Expression trees

SQL statements, queries, row sources and scalar expressions as immutable trees.

One family `Tree`, indexed by syntactic category, holds every form of node: a child of the wrong
category cannot be written down. Lists of nodes and optional nodes are categories of the same
family, so every traversal is one recursion and every law about trees one induction.

Each node carries the identity it was built with. Two nodes may have equal content and still be
different nodes. A transformation shares the nodes that it does not change, and identities make
that sharing visible.
-/

namespace SqlTree

/-- The identity of a node, given when the node is built. -/
abbrev NodeId := Nat

/-- A leaf of a tree: its content, and the identity of the node that holds it. -/
structure Node (α : Type) where
  id : NodeId
  value : α
  deriving DecidableEq, Repr

/-- A column, possibly qualified by the name or alias of its table. -/
structure Column where
  table : Option String := none
  name : String
  type : SqlType
  deriving DecidableEq, Repr

structure Table where
  name : String
  aliasName : Option String := none
  catalog : Option String := none
  schema : Option String := none
  deriving DecidableEq, Repr

/-- A value to be bound, with its declared type. -/
structure Argument where
  value : Value
  type : SqlType
  deriving DecidableEq, Repr

/-- The part of a query's rows that is wanted. -/
structure Page where
  offset : Option Int64 := none
  limit : Option Int64 := none
  deriving DecidableEq, Repr

/-- An extension node of a kind that this library does not define. -/
structure Foreign where
  kind : String
  type : Option SqlType := none
  fields : List Value := []
  deriving DecidableEq, Repr

inductive Category where
  | scalar
  | source
  | query
  | order
  | assignment
  | extension
  | statement
  | list (element : Category)
  | option (content : Category)
  deriving DecidableEq, Repr

inductive Tree : Category → Type where
  -- scalar expressions
  | column (node : Node Column) : Tree .scalar
  | argument (node : Node Argument) : Tree .scalar
  /-- An expression in a select list, with the name it is given there. -/
  | declare (id : NodeId) (expr : Tree .scalar) (name : Option String) : Tree .scalar
  | binary (id : NodeId) (op : BinaryOperator) (left right : Tree .scalar) (type : SqlType) :
      Tree .scalar
  | unary (id : NodeId) (op : UnaryOperator) (operand : Tree .scalar) (type : SqlType) :
      Tree .scalar
  | between (id : NodeId) (expr lower upper : Tree .scalar) (negated : Bool) : Tree .scalar
  | inValues (id : NodeId) (left : Tree .scalar) (values : Tree (.list .scalar))
      (negated : Bool) : Tree .scalar
  | inQuery (id : NodeId) (left : Tree .scalar) (query : Tree .query) (negated : Bool) :
      Tree .scalar
  | existsQuery (id : NodeId) (query : Tree .query) (negated : Bool) : Tree .scalar
  /-- An aggregate; without an argument it ranges over whole rows. -/
  | aggregate (id : NodeId) (function : Aggregate) (argument : Tree (.option .scalar))
      (distinct : Bool) (type : SqlType) : Tree .scalar
  | call (id : NodeId) (name : String) (arguments : Tree (.list .scalar)) (type : SqlType) :
      Tree .scalar
  | cast (id : NodeId) (expr : Tree .scalar) (type : SqlType) : Tree .scalar
  | scalarExtension (node : Tree .extension) : Tree .scalar
  -- row sources
  | table (node : Node Table) : Tree .source
  | join (id : NodeId) (kind : JoinKind) (left right : Tree .source)
      (condition : Tree (.option .scalar)) : Tree .source
  | subquery (id : NodeId) (query : Tree .query) (aliasName : Option String) : Tree .source
  | sourceExtension (node : Tree .extension) : Tree .source
  -- queries
  /-- A select; an empty list of columns means all of them. -/
  | select (id : NodeId) (columns : Tree (.list .scalar)) (source : Tree .source)
      (condition : Tree (.option .scalar)) (groupBy : Tree (.list .scalar))
      (having : Tree (.option .scalar)) (distinct : Bool) (orderBy : Tree (.list .order))
      (page : Page) : Tree .query
  | union (id : NodeId) (left right : Tree .query) (all : Bool) (orderBy : Tree (.list .order))
      (page : Page) : Tree .query
  -- entries of lists
  | order (id : NodeId) (expr : Tree .scalar) (descending : Bool) : Tree .order
  | assign (id : NodeId) (column : Node Column) (value : Tree .scalar) : Tree .assignment
  -- extensions
  /-- MySQL: insert a row, or update the row that is already there. -/
  | duplicateKeyUpsert (id : NodeId) (table : Node Table) (row updates : Tree (.list .assignment)) :
      Tree .extension
  /-- MySQL: insert several rows at once. -/
  | bulkInsert (id : NodeId) (table : Node Table) (rows : Tree (.list (.list .assignment))) :
      Tree .extension
  /-- MySQL: join on all columns of equal names. -/
  | naturalJoin (id : NodeId) (left right : Tree .source) : Tree .extension
  /-- MySQL: full text search in some columns. -/
  | matchAgainst (id : NodeId) (columns : Tree (.list .scalar)) (search : String)
      (modifier : Option SearchModifier) : Tree .extension
  /-- PostgreSQL: pattern match without regard to case. -/
  | ilike (id : NodeId) (left right : Tree .scalar) : Tree .extension
  /-- PostgreSQL: insert a row, or do something else when `conflict` columns clash. -/
  | conflictUpsert (id : NodeId) (table : Node Table) (row : Tree (.list .assignment))
      (conflict : List (Node Column)) (updates : Tree (.list .assignment)) : Tree .extension
  | foreign (id : NodeId) (node : Foreign) : Tree .extension
  -- statements, and whatever else can be formatted on its own
  | queryStatement (query : Tree .query) : Tree .statement
  | insert (id : NodeId) (table : Node Table) (row : Tree (.list .assignment)) : Tree .statement
  | insertFromQuery (id : NodeId) (table : Node Table) (columns : List (Node Column))
      (query : Tree .query) : Tree .statement
  | update (id : NodeId) (table : Node Table) (assignments : Tree (.list .assignment))
      (condition : Tree (.option .scalar)) : Tree .statement
  | delete (id : NodeId) (table : Node Table) (condition : Tree (.option .scalar)) :
      Tree .statement
  | scalarStatement (scalar : Tree .scalar) : Tree .statement
  | sourceStatement (source : Tree .source) : Tree .statement
  | extensionStatement (node : Tree .extension) : Tree .statement
  -- lists of nodes
  | nil {c : Category} : Tree (.list c)
  | cons {c : Category} (head : Tree c) (tail : Tree (.list c)) : Tree (.list c)
  -- optional nodes
  | absent {c : Category} : Tree (.option c)
  | present {c : Category} (content : Tree c) : Tree (.option c)

/-- An expression that yields one value. -/
abbrev Scalar := Tree .scalar

/-- Something that yields rows in the `FROM` clause of a query. -/
abbrev Source := Tree .source

abbrev Query := Tree .query

abbrev Order := Tree .order

abbrev Assignment := Tree .assignment

/-- A node that belongs to one dialect, and stands as scalar, source or statement. -/
abbrev Extension := Tree .extension

/-- Whatever can be formatted or transformed on its own. -/
abbrev Statement := Tree .statement

abbrev Category.member : Category → Category
  | .list element => element
  | c => c

namespace Tree

/-- The nodes of a list, in order; other trees have no members. -/
def members : {c : Category} → Tree c → List (Tree c.member)
  | _, .nil => []
  | _, .cons head tail => head :: tail.members
  | _, _ => []

def toList {c : Category} (nodes : Tree (.list c)) : List (Tree c) :=
  nodes.members

def ofList {c : Category} : List (Tree c) → Tree (.list c)
  | [] => .nil
  | head :: tail => .cons head (ofList tail)

def ofOption {c : Category} : Option (Tree c) → Tree (.option c)
  | none => .absent
  | some content => .present content

@[simp]
theorem toList_nil {c : Category} : toList (.nil : Tree (.list c)) = [] :=
  rfl

@[simp]
theorem toList_cons {c : Category} (head : Tree c) (tail : Tree (.list c)) :
    toList (.cons head tail) = head :: tail.toList :=
  rfl

@[simp]
theorem toList_ofList {c : Category} (nodes : List (Tree c)) : (ofList nodes).toList = nodes := by
  induction nodes with
  | nil => rfl
  | cons head tail ih => rw [ofList, toList_cons, ih]

end Tree

end SqlTree
