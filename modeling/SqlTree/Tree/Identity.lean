import SqlTree.Tree.Basic

/-!
# Identities of nodes

When two trees are the same node, and copies of a node under another identity. Lists and optional
nodes have no identity of their own: they are the same when their members are.
-/

namespace SqlTree

def Node.same {α : Type} (a b : Node α) : Bool :=
  a.id == b.id

def Node.sameAll {α : Type} : List (Node α) → List (Node α) → Bool
  | [], [] => true
  | a :: as, b :: bs => a.same b && sameAll as bs
  | _, _ => false

namespace Tree

/-- The identity of a node. A node that stands for another one has the identity of that one. -/
def id? : {c : Category} → Tree c → Option NodeId
  | _, .column node => some node.id
  | _, .argument node => some node.id
  | _, .declare id _ _ => some id
  | _, .binary id _ _ _ _ => some id
  | _, .unary id _ _ _ => some id
  | _, .between id _ _ _ _ => some id
  | _, .inValues id _ _ _ => some id
  | _, .inQuery id _ _ _ => some id
  | _, .existsQuery id _ _ => some id
  | _, .aggregate id _ _ _ _ => some id
  | _, .call id _ _ _ => some id
  | _, .cast id _ _ => some id
  | _, .scalarExtension node => node.id?
  | _, .table node => some node.id
  | _, .join id _ _ _ _ => some id
  | _, .subquery id _ _ => some id
  | _, .sourceExtension node => node.id?
  | _, .select id _ _ _ _ _ _ _ _ => some id
  | _, .union id _ _ _ _ _ => some id
  | _, .order id _ _ => some id
  | _, .assign id _ _ => some id
  | _, .duplicateKeyUpsert id _ _ _ => some id
  | _, .bulkInsert id _ _ => some id
  | _, .naturalJoin id _ _ => some id
  | _, .matchAgainst id _ _ _ => some id
  | _, .ilike id _ _ => some id
  | _, .conflictUpsert id _ _ _ _ => some id
  | _, .foreign id _ => some id
  | _, .queryStatement query => query.id?
  | _, .insert id _ _ => some id
  | _, .insertFromQuery id _ _ _ => some id
  | _, .update id _ _ _ => some id
  | _, .delete id _ _ => some id
  | _, .scalarStatement scalar => scalar.id?
  | _, .sourceStatement source => source.id?
  | _, .extensionStatement node => node.id?
  | _, .nil => none
  | _, .cons .. => none
  | _, .absent => none
  | _, .present _ => none

/-- Whether two trees are the same node. Identities are unique among nodes, so equal identities
suffice; statements that merely stand for a node must also do so in the same way. -/
def same : {c : Category} → Tree c → Tree c → Bool
  | _, .nil, other => match other with
    | .nil => true
    | .cons .. => false
  | _, .cons head tail, other => match other with
    | .nil => false
    | .cons otherHead otherTail => head.same otherHead && tail.same otherTail
  | _, .absent, other => match other with
    | .absent => true
    | .present _ => false
  | _, .present content, other => match other with
    | .absent => false
    | .present otherContent => content.same otherContent
  | _, .queryStatement query, other => match other with
    | .queryStatement otherQuery => query.same otherQuery
    | _ => false
  | _, .scalarStatement scalar, other => match other with
    | .scalarStatement otherScalar => scalar.same otherScalar
    | _ => false
  | _, .sourceStatement source, other => match other with
    | .sourceStatement otherSource => source.same otherSource
    | _ => false
  | _, .extensionStatement node, other => match other with
    | .extensionStatement otherNode => node.same otherNode
    | _ => false
  | _, tree, other => tree.id? == other.id?

/-- A copy of a node under another identity, with the same children. -/
def withId (new : NodeId) : {c : Category} → Tree c → Tree c
  | _, .column node => .column ⟨new, node.value⟩
  | _, .argument node => .argument ⟨new, node.value⟩
  | _, .declare _ expr name => .declare new expr name
  | _, .binary _ op left right type => .binary new op left right type
  | _, .unary _ op operand type => .unary new op operand type
  | _, .between _ expr lower upper negated => .between new expr lower upper negated
  | _, .inValues _ left values negated => .inValues new left values negated
  | _, .inQuery _ left query negated => .inQuery new left query negated
  | _, .existsQuery _ query negated => .existsQuery new query negated
  | _, .aggregate _ function operand distinct type =>
    .aggregate new function operand distinct type
  | _, .call _ name arguments type => .call new name arguments type
  | _, .cast _ expr type => .cast new expr type
  | _, .scalarExtension node => .scalarExtension (node.withId new)
  | _, .table node => .table ⟨new, node.value⟩
  | _, .join _ kind left right condition => .join new kind left right condition
  | _, .subquery _ query aliasName => .subquery new query aliasName
  | _, .sourceExtension node => .sourceExtension (node.withId new)
  | _, .select _ columns source condition groupBy having distinct orderBy page =>
    .select new columns source condition groupBy having distinct orderBy page
  | _, .union _ left right all orderBy page => .union new left right all orderBy page
  | _, .order _ expr descending => .order new expr descending
  | _, .assign _ target value => .assign new target value
  | _, .duplicateKeyUpsert _ target row updates => .duplicateKeyUpsert new target row updates
  | _, .bulkInsert _ target rows => .bulkInsert new target rows
  | _, .naturalJoin _ left right => .naturalJoin new left right
  | _, .matchAgainst _ columns search modifier => .matchAgainst new columns search modifier
  | _, .ilike _ left right => .ilike new left right
  | _, .conflictUpsert _ target row conflict updates =>
    .conflictUpsert new target row conflict updates
  | _, .foreign _ node => .foreign new node
  | _, .queryStatement query => .queryStatement (query.withId new)
  | _, .insert _ target row => .insert new target row
  | _, .insertFromQuery _ target columns query => .insertFromQuery new target columns query
  | _, .update _ target assignments condition => .update new target assignments condition
  | _, .delete _ target condition => .delete new target condition
  | _, .scalarStatement scalar => .scalarStatement (scalar.withId new)
  | _, .sourceStatement source => .sourceStatement (source.withId new)
  | _, .extensionStatement node => .extensionStatement (node.withId new)
  | _, .nil => .nil
  | _, .cons head tail => .cons head tail
  | _, .absent => .absent
  | _, .present content => .present content

end Tree

end SqlTree
