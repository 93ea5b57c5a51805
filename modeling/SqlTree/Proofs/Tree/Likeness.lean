import Mathlib.Data.List.Forall2
import Mathlib.Data.Option.Basic
import SqlTree.Proofs.Tree.Form
import SqlTree.Tree.Validation

/-!
# Trees of the same shape

Two trees are alike if they have nodes of the same form in the same places and lists of the same
lengths, and differ at most in their identities and in labels that a likeness relates: names,
values, declared types, pages. What is collected from two such trees is related item by item.
-/

namespace SqlTree

/-- Which labels may stand where another tree has its own. Operators, flags, the names of functions
and the types that casts ask for are not among them: these are always the same. -/
structure Likeness where
  /-- Names that are written in quotes. -/
  name : String → String → Prop
  argument : Argument → Argument → Prop
  /-- Types that are declared by columns, operators, aggregates and calls. -/
  type : SqlType → SqlType → Prop
  /-- Texts that are searched for. -/
  search : String → String → Prop
  page : Page → Page → Prop
  foreign : Foreign → Foreign → Prop

/-- Every label may stand for itself, but for some of the pages. -/
structure Likeness.ReflexiveExceptPages (like : Likeness) : Prop where
  name (name : String) : like.name name name
  argument (argument : Argument) : like.argument argument argument
  type (type : SqlType) : like.type type type
  search (search : String) : like.search search search
  foreign (node : Foreign) : like.foreign node node

structure Likeness.Reflexive (like : Likeness) : Prop extends like.ReflexiveExceptPages where
  page (page : Page) : like.page page page

def Likeness.equal : Likeness :=
  ⟨Eq, Eq, Eq, Eq, Eq, Eq⟩

theorem Likeness.equal_reflexive : Likeness.equal.Reflexive :=
  ⟨⟨fun _ => rfl, fun _ => rfl, fun _ => rfl, fun _ => rfl, fun _ => rfl⟩, fun _ => rfl⟩

variable {like : Likeness}

/-- Tables with related names; a part of a name is absent in both or in neither. -/
structure Table.Alike (like : Likeness) (a b : Table) : Prop where
  name : like.name a.name b.name
  aliasName : Option.Rel like.name a.aliasName b.aliasName
  catalog : Option.Rel like.name a.catalog b.catalog
  schema : Option.Rel like.name a.schema b.schema

structure Column.Alike (like : Likeness) (a b : Column) : Prop where
  table : Option.Rel like.name a.table b.table
  name : like.name a.name b.name
  type : like.type a.type b.type

/-- The same constructor with related labels. -/
inductive Form.Alike (like : Likeness) : {c : Category} → {s : Slot} → Form c s → Form c s → Prop
  | declare {name name' : Option String} :
    Option.Rel like.name name name' → Alike like (.declare name) (.declare name')
  | binary {type type' : SqlType} (op : BinaryOperator) :
    like.type type type' → Alike like (.binary op type) (.binary op type')
  | unary {type type' : SqlType} (op : UnaryOperator) :
    like.type type type' → Alike like (.unary op type) (.unary op type')
  | between (negated : Bool) : Alike like (.between negated) (.between negated)
  | inValues (negated : Bool) : Alike like (.inValues negated) (.inValues negated)
  | inQuery (negated : Bool) : Alike like (.inQuery negated) (.inQuery negated)
  | existsQuery (negated : Bool) : Alike like (.existsQuery negated) (.existsQuery negated)
  | aggregate {type type' : SqlType} (function : Aggregate) (distinct : Bool) :
    like.type type type' →
      Alike like (.aggregate function distinct type) (.aggregate function distinct type')
  | call {type type' : SqlType} (name : String) :
    like.type type type' → Alike like (.call name type) (.call name type')
  | cast (type : SqlType) : Alike like (.cast type) (.cast type)
  | join (kind : JoinKind) : Alike like (.join kind) (.join kind)
  | subquery {aliasName aliasName' : Option String} :
    Option.Rel like.name aliasName aliasName' →
      Alike like (.subquery aliasName) (.subquery aliasName')
  | select {page page' : Page} (distinct : Bool) :
    like.page page page' → Alike like (.select distinct page) (.select distinct page')
  | union {page page' : Page} (all : Bool) :
    like.page page page' → Alike like (.union all page) (.union all page')
  | order (descending : Bool) : Alike like (.order descending) (.order descending)
  | assign : Alike like .assign .assign
  | duplicateKeyUpsert : Alike like .duplicateKeyUpsert .duplicateKeyUpsert
  | bulkInsert : Alike like .bulkInsert .bulkInsert
  | naturalJoin : Alike like .naturalJoin .naturalJoin
  | matchAgainst {search search' : String} (modifier : Option SearchModifier) :
    like.search search search' →
      Alike like (.matchAgainst search modifier) (.matchAgainst search' modifier)
  | ilike : Alike like .ilike .ilike
  | conflictUpsert : Alike like .conflictUpsert .conflictUpsert
  | foreign {node node' : Foreign} :
    like.foreign node node' → Alike like (.foreign node) (.foreign node')
  | insert : Alike like .insert .insert
  | insertFromQuery : Alike like .insertFromQuery .insertFromQuery
  | update : Alike like .update .update
  | delete : Alike like .delete .delete

/-- Parts of the same shape with related labels. -/
inductive Alike (like : Likeness) : (s : Slot) → s.Part → s.Part → Prop
  | unit : Alike like .unit () ()
  | table {a b : Node Table} : a.value.Alike like b.value → Alike like .table a b
  | column {a b : Node Column} : a.value.Alike like b.value → Alike like .column a b
  | argument {a b : Node Argument} : like.argument a.value b.value → Alike like .argument a b
  | noColumns : Alike like .columns [] []
  | moreColumns {a b : Node Column} {as bs : List (Node Column)} :
    a.value.Alike like b.value → Alike like .columns as bs → Alike like .columns (a :: as) (b :: bs)
  | pair {s t : Slot} {a a' : s.Part} {b b' : t.Part} :
    Alike like s a a' → Alike like t b b' → Alike like (.pair s t) (a, b) (a', b')
  | frame {c : Category} {s : Slot} (frame : Frame c s) {parts parts' : s.Part} :
    Alike like s parts parts' → Alike like (.tree c) (frame.build parts) (frame.build parts')
  | node {c : Category} {s : Slot} {form form' : Form c s} (id id' : NodeId)
    {parts parts' : s.Part} :
    form.Alike like form' → Alike like s parts parts' →
      Alike like (.tree c) (form.build id parts) (form'.build id' parts')

abbrev Tree.Alike (like : Likeness) {c : Category} (a b : Tree c) : Prop :=
  SqlTree.Alike like (.tree c) a b

/-! ## Every tree is like itself -/

section Reflexive

variable (reflexive : like.ReflexiveExceptPages)

include reflexive

theorem Likeness.ReflexiveExceptPages.optional (name : Option String) :
    Option.Rel like.name name name := by
  cases name with
  | none => exact .none
  | some name => exact .some (reflexive.name name)

theorem Table.alike_self (table : Table) : table.Alike like table :=
  ⟨reflexive.name _, reflexive.optional _, reflexive.optional _, reflexive.optional _⟩

theorem Column.alike_self (column : Column) : column.Alike like column :=
  ⟨reflexive.optional _, reflexive.name _, reflexive.type _⟩

theorem Form.alike_self_of_pages {c : Category} {s : Slot} (form : Form c s)
    (pages : ∀ page ∈ form.pages, like.page page page) : form.Alike like form := by
  cases form with
  | declare name => exact .declare (reflexive.optional name)
  | binary op type => exact .binary op (reflexive.type type)
  | unary op type => exact .unary op (reflexive.type type)
  | aggregate function distinct type => exact .aggregate function distinct (reflexive.type type)
  | call name type => exact .call name (reflexive.type type)
  | subquery aliasName => exact .subquery (reflexive.optional aliasName)
  | select distinct page => exact .select distinct (pages page List.mem_cons_self)
  | union all page => exact .union all (pages page List.mem_cons_self)
  | matchAgainst search modifier => exact .matchAgainst modifier (reflexive.search search)
  | foreign node => exact .foreign (reflexive.foreign node)
  | _ => constructor

theorem Slot.alike_self_of_pages (s : Slot) (part : s.Part)
    (pages : ∀ page ∈ s.collect { before := Tree.ownPage } part, like.page page page) :
    Alike like s part part := by
  induction s, part using Slot.induction with
  | unit => exact .unit
  | table node => exact .table (node.value.alike_self reflexive)
  | column node => exact .column (node.value.alike_self reflexive)
  | argument node => exact .argument (reflexive.argument node.value)
  | noColumns => exact .noColumns
  | moreColumns node nodes ih => exact .moreColumns (node.value.alike_self reflexive) (ih pages)
  | pair a b first second ihFirst ihSecond =>
    exact .pair (ihFirst fun page member => pages page (List.mem_append_left _ member))
      (ihSecond fun page member => pages page (List.mem_append_right _ member))
  | frame frame parts ih =>
    exact .frame frame (ih fun page member => pages page (frame.mem_collect_build member))
  | node form id parts ih =>
    have own : ∀ page ∈ form.pages, like.page page page := by
      rw [← form.ownPage_build id parts]
      exact fun page member => pages page (form.mem_collect_build (.inl member))
    have inside := ih fun page member => pages page (form.mem_collect_build (.inr member))
    exact .node id id (form.alike_self_of_pages reflexive own) inside

/-- A tree is like itself if its pages may stand for themselves. -/
theorem Tree.alike_self_of_pages {c : Category} (tree : Tree c)
    (pages : ∀ page ∈ tree.pages, like.page page page) : tree.Alike like tree :=
  Slot.alike_self_of_pages reflexive (.tree c) tree pages

end Reflexive

section Reflexive

variable (reflexive : like.Reflexive)

include reflexive

theorem Form.alike_self {c : Category} {s : Slot} (form : Form c s) : form.Alike like form :=
  form.alike_self_of_pages reflexive.toReflexiveExceptPages fun page _ => reflexive.page page

theorem Slot.alike_self (s : Slot) (part : s.Part) : Alike like s part part :=
  s.alike_self_of_pages reflexive.toReflexiveExceptPages part fun page _ => reflexive.page page

/-- Every tree is like itself. -/
theorem Tree.alike_self {c : Category} (tree : Tree c) : tree.Alike like tree :=
  Slot.alike_self reflexive (.tree c) tree

end Reflexive

namespace Alike

theorem fst {s t : Slot} {a b : (Slot.pair s t).Part} (alike : Alike like (.pair s t) a b) :
    Alike like s a.1 b.1 := by
  cases alike with
  | pair first second => exact first

theorem snd {s t : Slot} {a b : (Slot.pair s t).Part} (alike : Alike like (.pair s t) a b) :
    Alike like t a.2 b.2 := by
  cases alike with
  | pair first second => exact second

theorem tables {a b : Node Table} (alike : Alike like .table a b) :
    a.value.Alike like b.value := by
  cases alike with
  | table related => exact related

theorem sameColumn {a b : Node Column} (alike : Alike like .column a b) :
    a.value.Alike like b.value := by
  cases alike with
  | column related => exact related

theorem columns {as bs : List (Node Column)} (alike : Alike like .columns as bs) :
    List.Forall₂ (fun a b => a.value.Alike like b.value) as bs := by
  induction as generalizing bs with
  | nil =>
    cases alike with
    | noColumns => exact .nil
  | cons head tail ih =>
    cases alike with
    | moreColumns related rest => exact .cons related (ih rest)

theorem columnNames {as bs : List (Node Column)} (alike : Alike like .columns as bs) :
    List.Forall₂ (fun a b => like.name a.name b.name) (as.map Node.value) (bs.map Node.value) :=
  List.rel_map (fun _ _ related => related.name) alike.columns

/-- Brackets depend on the shape, so they stand in the same places. -/
theorem needsBrackets {a b : Scalar} (alike : a.Alike like b) :
    a.needsBrackets = b.needsBrackets := by
  cases alike with
  | frame frame _ => cases frame <;> rfl
  | node _ _ related _ => cases related <;> rfl

/-- Lists that are alike have members that are alike, one by one. -/
theorem toList {c : Category} {a b : Tree (.list c)} (alike : a.Alike like b) :
    List.Forall₂ (Tree.Alike like) a.toList b.toList := by
  -- The category of a list cannot vary in an induction over likeness, so it goes over the members.
  generalize spelled : a.toList = nodes
  induction nodes generalizing a b with
  | nil =>
    cases alike with
    | frame frame inside =>
      cases frame with
      | nil => exact .nil
      | cons => cases spelled
    | node _ _ related _ => cases related
  | cons head tail ih =>
    cases alike with
    | frame frame inside =>
      cases frame with
      | nil => cases spelled
      | cons =>
        obtain ⟨rfl, rest⟩ := List.cons.inj spelled
        exact .cons inside.fst (ih inside.snd rest)
    | node _ _ related _ => cases related

theorem map_eq {α β γ : Type} {R : α → β → Prop} {f : α → γ} {g : β → γ}
    (same : ∀ a b, R a b → f a = g b) {as : List α} {bs : List β} (each : List.Forall₂ R as bs) :
    as.map f = bs.map g := by
  induction each with
  | nil => rfl
  | cons related _ ih => rw [List.map_cons, List.map_cons, same _ _ related, ih]

theorem eq_nil_iff {α β : Type} {R : α → β → Prop} {as : List α} {bs : List β}
    (each : List.Forall₂ R as bs) : as = [] ↔ bs = [] := by
  cases each with
  | nil => exact ⟨fun _ => rfl, fun _ => rfl⟩
  | cons => exact ⟨nofun, nofun⟩

theorem target {a b : Assignment} (alike : a.Alike like b) :
    a.target.value.Alike like b.target.value := by
  cases alike with
  | frame frame _ => cases frame
  | node id id' related inside =>
    cases related with
    | assign =>
      cases inside.fst with
      | column column => exact column

/-! ## Collecting -/

/-- Contributions to two lists that are related item by item, if the nodes are alike. -/
structure Contributes (like : Likeness) {α β : Type} (Q : α → β → Prop) (own : Contribution α)
    (own' : Contribution β) : Prop where
  table {a b : Node Table} :
    a.value.Alike like b.value → List.Forall₂ Q (own.table a) (own'.table b)
  column {a b : Node Column} :
    a.value.Alike like b.value → List.Forall₂ Q (own.column a) (own'.column b)
  argument {a b : Node Argument} :
    like.argument a.value b.value → List.Forall₂ Q (own.argument a) (own'.argument b)
  before {c : Category} {a b : Tree c} :
    a.Alike like b → List.Forall₂ Q (own.before a) (own'.before b)
  after {c : Category} {a b : Tree c} :
    a.Alike like b → List.Forall₂ Q (own.after a) (own'.after b)

/-- What is collected from two trees that are alike is related item by item. -/
theorem collect {α β : Type} {Q : α → β → Prop} {own : Contribution α} {own' : Contribution β}
    (contributes : Contributes like Q own own') {s : Slot} {a b : s.Part}
    (alike : Alike like s a b) : List.Forall₂ Q (s.collect own a) (s.collect own' b) := by
  have around {c : Category} {a b : Tree c} {parts : List α} {parts' : List β}
      (alike : a.Alike like b) (inside : List.Forall₂ Q parts parts') :
      List.Forall₂ Q (own.around a parts) (own'.around b parts') :=
    List.rel_append (List.rel_append (contributes.before alike) inside) (contributes.after alike)
  induction alike with
  | unit | noColumns => exact .nil
  | table table => exact contributes.table table
  | column column => exact contributes.column column
  | argument argument => exact contributes.argument argument
  | moreColumns column _ ih => exact List.rel_append (contributes.column column) ih
  | pair _ _ ihFirst ihSecond => exact List.rel_append ihFirst ihSecond
  | frame frame inside ih =>
    -- Only frames that stand for another node contribute something of their own.
    have whole := Alike.frame frame inside
    cases frame with
    | scalarExtension | sourceExtension | queryStatement | scalarStatement | sourceStatement
    | extensionStatement => exact around whole ih
    | _ => exact ih
  | node id id' related inside ih =>
    rw [Slot.collect, Slot.collect, Form.collect_build, Form.collect_build]
    exact around (.node id id' related inside) ih

end Alike

end SqlTree
