import SqlTree.Proofs.Format.BoundValues
import SqlTree.Proofs.Format.QuotedNames
import SqlTree.Proofs.Text.Segments

/-!
# Base nodes

A statement without extension nodes is formatted in every flavor, and flavors hardly differ in what
they make of it. They bind the same parameters. Two flavors that quote names and ask for pages in
the same way have the same text; others have texts that differ in the quotes only, as long as no
page is asked for.
-/

namespace SqlTree

open Masking Segments

/-- Without extension nodes no flavor finds anything wrong. -/
theorem format_of_base (flavor : Flavor) (options : FormatOptions) {statement : Statement}
    (base : statement.extensionNodes = []) :
    format flavor.dialect options statement =
      .ok (statement.formatted flavor options.layout) := by
  obtain ⟨formatted, success⟩ := format_succeeds flavor options base
  rw [success, format_eq_formatted success]

/-- Flavors with the same quotes and the same words for a page have the same texts. -/
theorem Tree.formatted_eq (statement : Statement) {flavor flavor' : Flavor} (layout : Layout)
    (quotes : flavor.quote = flavor'.quote)
    (pages : Grammar.page flavor = Grammar.page flavor') :
    statement.formatted flavor layout = statement.formatted flavor' layout := by
  have alike : statement.Alike .values statement := statement.alike_self Likeness.values_reflexive
  have text : statement.render flavor layout 0 = statement.render flavor' layout 0 :=
    alike.render (parallel_values quotes pages layout) (fun _ _ => trivial) 0
  rw [formatted, formatted, text]

section Segments

variable (flavor flavor' : Flavor) (options : FormatOptions) {statement : Statement}

/-- Without pages, texts in different flavors have the same names, and the same between them. -/
theorem Tree.segments_formatted
    (pages : ∀ page ∈ statement.pages, page.isPaginated = false)
    (bare : ∀ name ∈ statement.bareNames,
      flavor.quote ∉ name.toList ∧ flavor'.quote ∉ name.toList) :
    segments flavor.quote (statement.formatted flavor options.layout).sql.toList =
      segments flavor'.quote (statement.formatted flavor' options.layout).sql.toList := by
  have alike : statement.Alike .unpaged statement :=
    statement.alike_self_of_pages Likeness.unpaged_reflexive fun page member =>
      ⟨pages page member, pages page member⟩
  have agree : SameSegments flavor.quote flavor'.quote (statement.render flavor options.layout 0)
      (statement.render flavor' options.layout 0) :=
    alike.render (parallel_unpaged flavor flavor' options) bare 0
  simp only [formatted, String.toList_ofList]
  rw [segments_dropWhile flavor.isBlank_quote, segments_dropWhile flavor'.isBlank_quote, agree.same]

/-- Nothing of a text is lost in its segments. -/
theorem Tree.spell_segments_formatted
    (bare : ∀ name ∈ statement.bareNames, flavor.quote ∉ name.toList) :
    spell flavor.quote
        (segments flavor.quote (statement.formatted flavor options.layout).sql.toList) =
      (statement.formatted flavor options.layout).sql.toList := by
  have alike : statement.Alike .names statement := statement.alike_self Likeness.names_reflexive
  have same : Same flavor.quote (statement.render flavor options.layout 0)
      (statement.render flavor options.layout 0) :=
    alike.render (parallel_names flavor options) bare 0
  refine spell_segments ?_
  simp only [formatted, String.toList_ofList]
  exact same.ended.dropWhile flavor.isBlank_quote

end Segments

/-- A statement without extension nodes is formatted by every flavor, with the same parameters, and
with the same text by the generic one and by PostgreSQL. If no query asks for a page and no function
or type has a quote in its name, the text of MySQL has the same names in the same places and the
same text between them, and nothing else. -/
theorem base_statement_formats_alike (options : FormatOptions) {statement : Statement}
    (base : statement.extensionNodes = []) :
    ∃ sql mysql parameters,
      format Flavor.generic.dialect options statement = .ok ⟨sql, parameters⟩ ∧
      format Flavor.postgresql.dialect options statement = .ok ⟨sql, parameters⟩ ∧
      format Flavor.mysql.dialect options statement = .ok ⟨mysql, parameters⟩ ∧
      ((∀ page ∈ statement.pages, page.offset = none ∧ page.limit = none) →
        (∀ name ∈ statement.spelledNames, '"' ∉ name.toList ∧ '\x60' ∉ name.toList) →
          segments '"' sql.toList = segments '\x60' mysql.toList ∧
          spell '"' (segments '"' sql.toList) = sql.toList ∧
          spell '\x60' (segments '\x60' mysql.toList) = mysql.toList) := by
  have generic := format_of_base .generic options base
  have shared : statement.formatted .generic options.layout =
      statement.formatted .postgresql options.layout :=
    statement.formatted_eq options.layout rfl rfl
  have postgresql := shared ▸ format_of_base .postgresql options base
  refine ⟨_, _, _, generic, postgresql, format_of_base .mysql options base, ?_⟩
  intro whole spelled
  have pages : ∀ page ∈ statement.pages, page.isPaginated = false := by
    intro page member
    rw [Page.isPaginated, (whole page member).1, (whole page member).2]
    rfl
  have bare : ∀ name ∈ statement.bareNames, '"' ∉ name.toList ∧ '\x60' ∉ name.toList :=
    fun name member => spelled name (Tree.mem_spelledNames generic member)
  exact ⟨Tree.segments_formatted .generic .mysql options pages bare,
    Tree.spell_segments_formatted .generic options fun name member => (bare name member).1,
    Tree.spell_segments_formatted .mysql options fun name member => (bare name member).2⟩

/-- A search for a name with quotes of both kinds in its names, in front of dots and brackets. -/
def mixedQuotes : Statement :=
  let name : Scalar := .column ⟨0, { table := some "b\x60", name := "say \"hi\"", type := .text }⟩
  let lower : Scalar := .call 1 "lower" (.cons name .nil) .text
  let found : Scalar := .binary 2 .equal lower (.argument ⟨3, ⟨.text "\"\x60", .text⟩⟩) .boolean
  .queryStatement
    (.select 4 (.cons (.declare 5 (.cast 6 name (.custom "citext")) (some "\x60\"")) .nil)
      (.table ⟨7, { name := "book", aliasName := some "b\x60" }⟩) (.present found) .nil .absent
      false .nil {})

theorem base_statement_formats_alike_mixedQuotes :
    let statement := mixedQuotes
    let sql := "SELECT CAST(\"b\x60\".\"say \"\"hi\"\"\" AS citext) AS \"\x60\"\"\" "
      ++ "FROM \"book\" \"b\x60\" WHERE lower(\"b\x60\".\"say \"\"hi\"\"\") = ?"
    let mysql := "SELECT CAST(\x60b\x60\x60\x60.\x60say \"hi\"\x60 AS citext) "
      ++ "AS \x60\x60\x60\"\x60 "
      ++ "FROM \x60book\x60 \x60b\x60\x60\x60 "
      ++ "WHERE lower(\x60b\x60\x60\x60.\x60say \"hi\"\x60) = ?"
    statement.extensionNodes = [] ∧
      (∀ page ∈ statement.pages, page.offset = none ∧ page.limit = none) ∧
      (∀ name ∈ statement.spelledNames, '"' ∉ name.toList ∧ '\x60' ∉ name.toList) ∧
      ∃ parameters, format Flavor.generic.dialect {} statement = .ok ⟨sql, parameters⟩ ∧
        format Flavor.postgresql.dialect {} statement = .ok ⟨sql, parameters⟩ ∧
        format Flavor.mysql.dialect {} statement = .ok ⟨mysql, parameters⟩ ∧
        segments '"' sql.toList = segments '\x60' mysql.toList ∧
        spell '"' (segments '"' sql.toList) = sql.toList ∧
        spell '\x60' (segments '\x60' mysql.toList) = mysql.toList := by
  intro statement sql mysql
  have pages : ∀ page ∈ statement.pages, page.offset = none ∧ page.limit = none := by
    have asked : statement.pages = [{}] := rfl
    rw [asked, List.forall_mem_singleton]
    decide
  have spelled : ∀ name ∈ statement.spelledNames, '"' ∉ name.toList ∧ '\x60' ∉ name.toList := by
    have names : statement.spelledNames = ["citext", "lower"] := rfl
    rw [names, List.forall_mem_cons, List.forall_mem_singleton]
    decide
  have generic : format Flavor.generic.dialect {} statement =
      .ok ⟨sql, [⟨.text "\"\x60", .text⟩]⟩ := format_eq_ok (by decide +kernel)
  have quoted : format Flavor.mysql.dialect {} statement =
      .ok ⟨mysql, [⟨.text "\"\x60", .text⟩]⟩ := format_eq_ok (by decide +kernel)
  have base : statement.extensionNodes = [] := rfl
  obtain ⟨_, _, _, generic', postgresql, quoted', alike⟩ := base_statement_formats_alike {} base
  cases generic'.symm.trans generic
  cases quoted'.symm.trans quoted
  exact ⟨base, pages, spelled, _, generic, postgresql, quoted, alike pages spelled⟩

end SqlTree
