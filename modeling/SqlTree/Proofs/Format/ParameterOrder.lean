import SqlTree.Proofs.Tree.Likeness
import SqlTree.Proofs.Tree.Signal

/-!
# The order of parameters

The parameters that formatting returns are those of the tree, read off from left to right without
any formatter: `Tree.parameters`. They depend neither on the layout nor on the dialect that accepts
the tree.
-/

namespace SqlTree

/-- The two parameters of a page. Without a page there are none; where only one side is given, the
offset counts as zero and the limit as the greatest number. -/
def Page.parameters : Page → List Argument
  | ⟨none, none⟩ => []
  | ⟨offset, limit⟩ =>
    [⟨.int (offset.getD 0), .long⟩, ⟨.int (limit.getD 9223372036854775807), .long⟩]

namespace Tree

/-- The parameters of a node that stand behind those of its parts: the page of a query, and the text
that is searched for. -/
def ownParameters : {c : Category} → Tree c → List Argument
  | _, .select _ _ _ _ _ _ _ _ page => page.parameters
  | _, .union _ _ _ _ _ page => page.parameters
  | _, .matchAgainst _ _ search _ => [⟨.text search, .varchar none⟩]
  | _, _ => []

def parameters {c : Category} (tree : Tree c) : List Argument :=
  tree.collect { argument := fun node => [node.value], after := ownParameters }

end Tree

/-- Trees that are alike have parameters that are related one by one, if their arguments, pages and
searched texts are. -/
theorem Alike.parameters {like : Likeness} {Q : Argument → Argument → Prop}
    (argument : ∀ {a b : Argument}, like.argument a b → Q a b)
    (page : ∀ {a b : Page}, like.page a b → List.Forall₂ Q a.parameters b.parameters)
    (search : ∀ {a b : String}, like.search a b →
      Q ⟨.text a, .varchar none⟩ ⟨.text b, .varchar none⟩)
    {c : Category} {a b : Tree c} (alike : a.Alike like b) :
    List.Forall₂ Q a.parameters b.parameters := by
  refine alike.collect
    { table := fun _ => .nil
      column := fun _ => .nil
      argument := fun related => .cons (argument related) .nil
      before := fun _ => .nil
      after := ?_ }
  intro c a b alike
  cases alike with
  | frame frame _ => cases frame <;> exact .nil
  | node id id' related _ =>
    cases related with
    | select _ pages => exact page pages
    | union _ pages => exact page pages
    | matchAgainst _ searches => exact .cons (search searches) .nil
    | _ => exact .nil

def Action.bound : Action → List Argument
  | .placeholder argument => [argument]
  | _ => []

/-- A trace that does not stop has the parameters of all its actions. -/
theorem Action.traceAll_parameters {actions : List Action}
    (going : (traceAll actions).error = none) :
    (traceAll actions).parameters = actions.flatMap bound := by
  induction actions with
  | nil => rfl
  | cons action rest ih =>
    rw [traceAll] at going ⊢
    cases stopped : action.trace.error with
    | some error =>
      rw [Trace.append_of_stopped stopped, stopped] at going
      cases going
    | none =>
      rw [Trace.append_of_going stopped] at going ⊢
      have rest_eq := ih going
      cases action <;> simp_all [trace, bound, EmptyCollection.emptyCollection]

theorem Page.flatMap_bindings (page : Page) :
    page.bindings.flatMap Action.bound = page.parameters := by
  rcases page with ⟨_ | offset, _ | limit⟩ <;> rfl

/-- What happens before the parts of a node binds nothing. -/
theorem Tree.flatMap_entrySignals (flavor : Flavor) {c : Category} (tree : Tree c) :
    (tree.entrySignals flavor).flatMap Action.bound = [] := by
  have announced (node : Extension) : (flavor.announcement node).flatMap Action.bound = [] := by
    cases owned : flavor.owns node <;> simp [Flavor.announcement, owned, Action.bound]
  have rejected (check : Except Error Unit) (event : Error → Event) :
      (rejection check event).flatMap Action.bound = [] := by
    cases check <;> rfl
  unfold entrySignals
  split
  · exact announced _
  · exact announced _
  · exact announced _
  · exact rejected _ _
  · exact rejected _ _
  · rfl
  · rfl

/-- Behind its parts a node binds its page or the text that it searches for. -/
theorem Tree.flatMap_exitSignals {c : Category} (tree : Tree c) :
    tree.exitSignals.flatMap Action.bound = tree.ownParameters := by
  cases tree with
  | select => exact Page.flatMap_bindings _
  | union => exact Page.flatMap_bindings _
  | _ => rfl

/-- What the signals of a tree bind are its parameters. -/
theorem Tree.flatMap_signals (flavor : Flavor) {c : Category} (tree : Tree c) :
    (tree.signals flavor).flatMap Action.bound = tree.parameters := by
  rw [signals, flatMap_collect, parameters]
  congr 1
  simp only [Contribution.flatMap, Flavor.signals, flatMap_entrySignals, flatMap_exitSignals,
    List.flatMap_nil, Action.bound, List.flatMap_cons, List.append_nil]

/-- The parameters that formatting returns are those of the tree, in the order of its text, in every
layout and under every dialect that accepts the tree. -/
theorem format_parameters (flavor : Flavor) (options : FormatOptions) (statement : Statement)
    (formatted : Formatted) (success : format flavor.dialect options statement = .ok formatted) :
    formatted.parameters = statement.parameters := by
  obtain ⟨f, ran, rfl⟩ := format_ok success
  obtain ⟨going, bound, -⟩ := Action.exec_ok ran
  have traced : Action.traceAll (Script.actions flavor statement.script) =
      Action.traceAll (statement.signals flavor) := statement.trace_script flavor
  rw [traced] at going bound
  calc f.result.parameters
      = (Action.traceAll (statement.signals flavor)).parameters := bound
    _ = (statement.signals flavor).flatMap Action.bound := Action.traceAll_parameters going
    _ = statement.parameters := statement.flatMap_signals flavor

/-- A union whose parameters come from pages at two depths, a subquery, a full text search and an
order. -/
def pagedUnion : Statement :=
  let users : Source := .table ⟨0, { name := "users" }⟩
  let number (id : NodeId) (n : Int64) : Scalar := .argument ⟨id, ⟨.int n, .int⟩⟩
  let inner : Query :=
    .select 1 (.cons (number 2 2) .nil) users .absent .nil .absent false .nil { limit := some 3 }
  let found : Scalar := .scalarExtension (.matchAgainst 3 (.cons (number 4 4) .nil) "x" none)
  .queryStatement
    (.union 5
      (.select 6 .nil users (.present (.inQuery 7 (number 8 1) inner false)) .nil .absent false .nil
        {})
      (.select 9 .nil users (.present found) .nil .absent false .nil {})
      true (.cons (.order 10 (number 11 5) true) .nil) { offset := some 6 })

def pagedUnionText : Formatted where
  sql := "(SELECT * FROM `users` WHERE ? IN (SELECT ? FROM `users` LIMIT ?, ?)) UNION ALL "
    ++ "(SELECT * FROM `users` WHERE MATCH (?) AGAINST (?)) ORDER BY ? DESC LIMIT ?, ?"
  parameters :=
    [⟨.int 1, .int⟩, ⟨.int 2, .int⟩, ⟨.int 0, .long⟩, ⟨.int 3, .long⟩, ⟨.int 4, .int⟩,
      ⟨.text "x", .varchar none⟩, ⟨.int 5, .int⟩, ⟨.int 6, .long⟩,
      ⟨.int 9223372036854775807, .long⟩]

theorem format_parameters_pagedUnion :
    format Flavor.mysql.dialect {} pagedUnion = .ok pagedUnionText ∧
      pagedUnionText.parameters = pagedUnion.parameters := by
  have success : format Flavor.mysql.dialect {} pagedUnion = .ok pagedUnionText :=
    format_eq_ok (by decide +kernel)
  exact ⟨success, format_parameters .mysql {} pagedUnion pagedUnionText success⟩

end SqlTree
