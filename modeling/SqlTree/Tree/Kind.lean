import SqlTree.Tree.Basic

/-!
# Kinds and types of nodes

What a node says about itself: the name of its kind, the SQL type of a scalar, whether it has to
be bracketed as an operand, and the page of a query.
-/

namespace SqlTree

namespace Tree

/-- The name of a node's kind. A node that stands for another one has the kind of that one. The two
upserts share a name although they are different nodes. -/
def kind : {c : Category} → Tree c → String
  | _, .column _ => "column"
  | _, .argument _ => "argument"
  | _, .declare .. => "column_declaring"
  | _, .binary .. => "binary"
  | _, .unary .. => "unary"
  | _, .between .. => "between"
  | _, .inValues .. => "in_list"
  | _, .inQuery .. => "in_list"
  | _, .existsQuery .. => "exists"
  | _, .aggregate .. => "aggregate"
  | _, .call .. => "function"
  | _, .cast .. => "casting"
  | _, .scalarExtension node => node.kind
  | _, .table _ => "table"
  | _, .join .. => "join"
  | _, .subquery .. => "subquery"
  | _, .sourceExtension node => node.kind
  | _, .select .. => "select"
  | _, .union .. => "union"
  | _, .order .. => "order"
  | _, .assign .. => "assign"
  | _, .duplicateKeyUpsert .. => "insert_or_update"
  | _, .bulkInsert .. => "bulk_insert"
  | _, .naturalJoin .. => "natural_join"
  | _, .matchAgainst .. => "match_against"
  | _, .ilike .. => "ilike"
  | _, .conflictUpsert .. => "insert_or_update"
  | _, .foreign _ node => node.kind
  | _, .queryStatement query => query.kind
  | _, .insert .. => "insert"
  | _, .insertFromQuery .. => "insert_from_query"
  | _, .update .. => "update"
  | _, .delete .. => "delete"
  | _, .scalarStatement scalar => scalar.kind
  | _, .sourceStatement source => source.kind
  | _, .extensionStatement node => node.kind
  | _, .nil => "list"
  | _, .cons .. => "list"
  | _, .absent => "option"
  | _, .present _ => "option"

/-- The type a node declares. Every scalar has one, an extension node that declares none taking a
type named after its kind; of the other nodes only some extensions do. -/
def declaredType : {c : Category} → Tree c → Option SqlType
  | _, .column node => some node.value.type
  | _, .argument node => some node.value.type
  | _, .declare _ expr _ => expr.declaredType
  | _, .binary _ _ _ _ type => some type
  | _, .unary _ _ _ type => some type
  | _, .between .. => some .boolean
  | _, .inValues .. => some .boolean
  | _, .inQuery .. => some .boolean
  | _, .existsQuery .. => some .boolean
  | _, .aggregate _ _ _ _ type => some type
  | _, .call _ _ _ type => some type
  | _, .cast _ _ type => some type
  | _, .scalarExtension node => some (node.declaredType.getD (.custom node.kind))
  | _, .matchAgainst .. => some .boolean
  | _, .ilike .. => some .boolean
  | _, .foreign _ node => node.type
  | _, _ => none

def sqlType (scalar : Scalar) : SqlType :=
  scalar.declaredType.getD (.custom scalar.kind)

def isLeaf : Scalar → Bool
  | .column _ => true
  | .argument _ => true
  | _ => false

/-- Whether a scalar is bracketed where it stands as an operand. Leaves and what already ends in a
bracketed group are not, and neither is a declared column. -/
def needsBrackets : Scalar → Bool
  | .column _ => false
  | .argument _ => false
  | .declare .. => false
  | .existsQuery .. => false
  | .aggregate .. => false
  | .call .. => false
  | .cast .. => false
  | _ => true

def page : Query → Page
  | .select _ _ _ _ _ _ _ _ page => page
  | .union _ _ _ _ _ page => page

end Tree

namespace Page

def isPaginated (page : Page) : Bool :=
  page.offset.isSome || page.limit.isSome

/-- The offset as an argument: none given means zero. -/
def offsetArgument (page : Page) : Argument :=
  { value := .int (page.offset.getD 0), type := .long }

/-- The limit as an argument: none given means the greatest number there is. -/
def limitArgument (page : Page) : Argument :=
  { value := .int (page.limit.getD Int64.maxValue), type := .long }

end Page

def Argument.equal (a b : Argument) : Bool :=
  a.value.equal b.value && a.type == b.type

end SqlTree
