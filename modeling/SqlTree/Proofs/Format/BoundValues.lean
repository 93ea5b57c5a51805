import SqlTree.Proofs.Format.Failure
import SqlTree.Proofs.Text.Parallel

/-!
# Values stay out of the text

The text of a statement shows placeholders where values are bound. Two statements that differ only
in such values, in declared types and in the numbers of pages have the same text and equally many
parameters, or the same error: nothing that is bound can become part of a command, and nothing that
is bound decides whether there is one.
-/

namespace SqlTree

/-- Values, searched texts and declared types are free. A query keeps its page, with other numbers
or with one side of it left open, and a query without a page gets none. -/
def Likeness.values : Likeness where
  name := Eq
  argument _ _ := True
  type _ _ := True
  search _ _ := True
  page page page' := page.isPaginated = page'.isPaginated
  foreign node node' := node.kind = node'.kind

theorem Likeness.values_reflexive : Likeness.values.Reflexive :=
  ⟨⟨fun _ => rfl, fun _ => trivial, fun _ => trivial, fun _ => trivial, fun _ => rfl⟩, fun _ => rfl⟩

/-! ## The text -/

/-- Flavors that quote names and ask for pages in the same way have the same texts. -/
theorem parallel_values {flavor flavor' : Flavor} (quotes : flavor.quote = flavor'.quote)
    (pages : Grammar.page flavor = Grammar.page flavor') (layout : Layout) :
    Grammar.Parallel .values flavor flavor' layout layout (fun _ => True) Eq where
  plain _ := trivial
  bare _ := rfl
  joined := by
    rintro separator first _ rest _ - rfl rfl
    rfl
  gap := by
    rintro first _ rest _ depth rfl rfl
    rfl
  bracketed same := congrArg Grammar.bracketed same
  nested depth same := congrArg (Grammar.nested layout depth) same
  called _ same := congrArg (_ ++ Grammar.bracketed ·) same
  quoted := by
    rintro name _ rfl
    rw [Grammar.quoted, Grammar.quoted, quotes]
  page := by
    intro page page' same
    have present : page.isPaginated = page'.isPaginated := same
    rw [Grammar.pageClause, Grammar.pageClause, present, pages]
    exact List.forall₂_refl _
  kind same := same

/-- Values do not show in a text: their placeholders do. -/
theorem Alike.render_eq (flavor : Flavor) (layout : Layout) {a b : Statement}
    (alike : a.Alike .values b) (depth : Nat) :
    a.render flavor layout depth = b.render flavor layout depth :=
  alike.render (parallel_values rfl rfl layout) (fun _ _ => trivial) depth

/-! ## Errors -/

/-- The columns that a row sets are no values, so the check of a bulk insert comes out the same. -/
theorem Alike.targetNames {a b : Tree (.list .assignment)} (alike : a.Alike .values b) :
    a.targetNames = b.targetNames := by
  rw [Tree.targetNames, Tree.targetNames, Tree.targets, Tree.targets, List.map_map, List.map_map]
  exact map_eq (fun _ _ entries => entries.target.name) alike.toList

/-- Nodes that are alike have the same fault, told in the same words. -/
theorem Alike.offence (flavor : Flavor) {a b : Extension} (alike : a.Alike .values b) :
    flavor.offence a = flavor.offence b := by
  cases alike with
  | frame frame _ => cases frame
  | node id id' related inside =>
    cases related with
    | duplicateKeyUpsert | naturalJoin | matchAgainst | ilike => cases flavor <;> rfl
    | bulkInsert =>
      -- Rows are compared by the names of the columns they set.
      have table : _ = _ := inside.fst.tables.name
      have names := map_eq (fun _ _ rows => rows.targetNames) inside.snd.toList
      cases flavor with
      | generic | postgresql => rfl
      | mysql =>
        change refusal (validateBulkInsert _ _) = refusal (validateBulkInsert _ _)
        rw [validateBulkInsert, validateBulkInsert, table, names]
    | conflictUpsert =>
      have table : _ = _ := inside.fst.fst.fst.tables.name
      have conflict := eq_nil_iff inside.fst.snd.columns
      have updates := eq_nil_iff inside.snd.toList
      cases flavor with
      | generic | mysql => rfl
      | postgresql =>
        change (if _ = [] ∧ _ ≠ [] then some (Error.missingConflictTarget _) else none) =
          if _ = [] ∧ _ ≠ [] then some (Error.missingConflictTarget _) else none
        simp only [table, conflict, updates, ne_eq]
    | @foreign node node' same =>
      have kind : node.kind = node'.kind := same
      cases flavor <;> exact congrArg (fun kind => some (Error.unsupportedNode kind)) kind

/-- Trees that are alike have extension nodes that are alike. -/
theorem Alike.extensionNodes {like : Likeness} {c : Category} {a b : Tree c}
    (alike : a.Alike like b) :
    List.Forall₂ (Tree.Alike like) a.extensionNodes b.extensionNodes := by
  have contributes : Contributes like (Tree.Alike like) Tree.extensionContribution
      Tree.extensionContribution :=
    { table := fun _ => .nil
      column := fun _ => .nil
      argument := fun _ => .nil
      after := fun _ => .nil
      before := by
        intro c a b alike
        cases c with
        | extension => exact .cons alike .nil
        | _ => exact .nil }
  exact alike.collect contributes

/-- The first thing that is wrong is the same, since owners, kinds and checks depend on no value. -/
theorem Alike.first_offence (flavor : Flavor) {a b : Statement} (alike : a.Alike .values b) :
    (a.offending flavor).head?.bind flavor.offence =
      (b.offending flavor).head?.bind flavor.offence := by
  have offences : a.extensionNodes.map flavor.offence = b.extensionNodes.map flavor.offence :=
    map_eq (fun _ _ nodes => nodes.offence flavor) alike.extensionNodes
  have found (nodes : List Extension) :
      nodes.filterMap flavor.offence = (nodes.map flavor.offence).filterMap id := by
    rw [List.filterMap_map, Function.id_comp]
  rw [Tree.head_offending, Tree.head_offending, Tree.head_failures, Tree.head_failures, found,
    found, offences]

/-! ## Parameters -/

/-- A page binds two parameters, even if only one side of it is given. -/
theorem Page.length_parameters (page : Page) :
    page.parameters.length = if page.isPaginated then 2 else 0 := by
  rcases page with ⟨_ | offset, _ | limit⟩ <;> rfl

theorem Page.parameters_related {page page' : Page}
    (same : page.isPaginated = page'.isPaginated) :
    List.Forall₂ (fun _ _ => True) page.parameters page'.parameters := by
  have lengths : page.parameters.length = page'.parameters.length := by
    rw [page.length_parameters, page'.length_parameters, same]
  exact List.forall₂_iff_get.mpr ⟨lengths, fun _ _ _ => trivial⟩

/-- There are as many placeholders to fill, whatever is bound to them. -/
theorem Alike.length_parameters {c : Category} {a b : Tree c} (alike : a.Alike .values b) :
    a.parameters.length = b.parameters.length := by
  have related : List.Forall₂ (fun _ _ => True) a.parameters b.parameters :=
    alike.parameters (fun _ => trivial) Page.parameters_related fun _ => trivial
  exact related.length_eq

/-- What is bound to the placeholders of a statement, what its parts are declared to be and how far
its pages reach have no part in its text: of two statements that differ in nothing else, either both
are written, with the same text and equally many parameters, or both are given up with the same
error. -/
theorem format_same_text_of_values (flavor : Flavor) (options : FormatOptions) {a b : Statement}
    (alike : a.Alike .values b) :
    (∃ sql bound bound', format flavor.dialect options a = .ok ⟨sql, bound⟩ ∧
        format flavor.dialect options b = .ok ⟨sql, bound'⟩ ∧ bound.length = bound'.length) ∨
      ∃ error, format flavor.dialect options a = .error error ∧
        format flavor.dialect options b = .error error := by
  have text := alike.render_eq flavor options.layout 0
  rw [format_eq, format_eq, alike.first_offence flavor]
  cases (b.offending flavor).head?.bind flavor.offence with
  | none =>
    left
    refine ⟨_, _, _, rfl, ?_, alike.length_parameters⟩
    rw [text]
    rfl
  | some error => exact .inr ⟨error, rfl, rfl⟩

def catalogSearch (text : String) (year : Argument) (page : Page) : Statement :=
  let title : Scalar := .column ⟨0, { name := "title", type := .text }⟩
  let published : Scalar := .column ⟨1, { name := "year", type := year.type }⟩
  let found : Scalar := .scalarExtension (.matchAgainst 2 (.cons title .nil) text none)
  let recent : Scalar := .binary 3 .greaterThan published (.argument ⟨4, year⟩) .boolean
  .queryStatement
    (.select 5 .nil (.table ⟨6, { name := "book" }⟩)
      (.present (.binary 7 .and found recent .boolean)) .nil .absent false .nil page)

/-- Searches for different texts and years are alike, if both have a page or neither has. -/
theorem catalogSearch_alike {text text' : String} {year year' : Argument} {page page' : Page}
    (pages : page.isPaginated = page'.isPaginated) :
    (catalogSearch text year page).Alike .values (catalogSearch text' year' page') := by
  have self {c : Category} (tree : Tree c) : tree.Alike .values tree :=
    tree.alike_self Likeness.values_reflexive
  have form {c : Category} {s : Slot} (form : Form c s) : form.Alike .values form :=
    form.alike_self Likeness.values_reflexive
  have search : (Form.matchAgainst text none).Alike .values (.matchAgainst text' none) :=
    .matchAgainst none trivial
  have published : Alike .values .column ⟨1, { name := "year", type := year.type }⟩
      ⟨1, { name := "year", type := year'.type }⟩ :=
    .column ⟨.none, rfl, trivial⟩
  have bound : Alike .values .argument ⟨4, year⟩ ⟨4, year'⟩ := .argument trivial
  have title : Tree.Alike .values (.column ⟨0, { name := "title", type := .text }⟩) _ := self _
  have titles := Alike.frame .cons (.pair title (self .nil))
  have found := Alike.frame .scalarExtension (.node 2 2 search titles)
  have recent := Alike.node 3 3 (form (.binary .greaterThan .boolean))
    (.pair (.frame .column published) (.frame .argument bound))
  have condition := Alike.frame .present
    (.node 7 7 (form (.binary .and .boolean)) (.pair found recent))
  have book : Tree.Alike .values (.table ⟨6, { name := "book" }⟩) _ := self _
  have select : (Form.select false page).Alike .values (.select false page') :=
    .select false pages
  exact .frame .queryStatement (.node 5 5 select
    (.pair (.pair (.pair (.pair (.pair (self .nil) book) condition) (self .nil)) (self .absent))
      (self .nil)))

/-- A search with both sides of its page given, and a hostile one that leaves a side open. -/
theorem format_same_text_of_values_catalogSearch :
    let quiet := catalogSearch "lean" ⟨.int 2000, .int⟩ { offset := some 0, limit := some 10 }
    let hostile := catalogSearch "') OR 1 = 1 --" ⟨.text "?", .text⟩ { limit := some 1 }
    quiet.Alike .values hostile ∧
      ∃ sql bound bound', format Flavor.mysql.dialect {} quiet = .ok ⟨sql, bound⟩ ∧
        format Flavor.mysql.dialect {} hostile = .ok ⟨sql, bound'⟩ ∧
        bound.length = bound'.length := by
  intro quiet hostile
  have alike : quiet.Alike .values hostile := catalogSearch_alike rfl
  have success : format Flavor.mysql.dialect {} quiet = .ok
      { sql := "SELECT * FROM `book` "
          ++ "WHERE (MATCH (`title`) AGAINST (?)) AND (`year` > ?) LIMIT ?, ?"
        parameters := [⟨.text "lean", .varchar none⟩, ⟨.int 2000, .int⟩, ⟨.int 0, .long⟩,
          ⟨.int 10, .long⟩] } :=
    format_eq_ok (by decide +kernel)
  refine ⟨alike, (format_same_text_of_values .mysql {} alike).resolve_right ?_⟩
  rintro ⟨error, failed, -⟩
  cases success.symm.trans failed

end SqlTree
