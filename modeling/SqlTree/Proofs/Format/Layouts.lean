import SqlTree.Proofs.Format.QuotedNames
import SqlTree.Proofs.Text.Spacing

/-!
# Layouts differ in spacing only

Laying a text out on several lines takes a blank away before each line break and puts blanks behind
it. The formatter does so at other moments, and in other states, than it writes the same clauses on
one line; the two texts still have the same words.
-/

namespace SqlTree

open Spacing

/-- The text that a statement has in some layout, and the one that it has in another, are the same
up to white space outside names. -/
theorem Tree.same_spacing (flavor : Flavor) (options options' : FormatOptions)
    {statement : Statement} (bare : ∀ name ∈ statement.bareNames, flavor.quote ∉ name.toList) :
    normal flavor.quote (statement.formatted flavor options.layout).sql.toList =
      normal flavor.quote (statement.formatted flavor options'.layout).sql.toList := by
  have alike : statement.Alike .equal statement := statement.alike_self Likeness.equal_reflexive
  have same : Spacing.Same flavor.quote (statement.render flavor options.layout 0)
      (statement.render flavor options'.layout 0) :=
    alike.render (parallel_layouts flavor options options') bare 0
  have visible := flavor.isBlank_quote
  simp only [Tree.formatted, String.toList_ofList]
  rw [normal_dropWhile visible, normal_dropWhile visible, same.normal_eq]

/-- **Beautifying changes only the layout.** In any two layouts a statement either has the same
error, or it is written with the same parameters and with texts that are equal up to white space
outside quoted names: one blank for each run of it, and none on the inner sides of brackets. So the
two texts have the same words, and quote the same names. Only names that are spelled without quotes
have to be free of them. -/
theorem format_same_up_to_spacing (flavor : Flavor) (options options' : FormatOptions)
    {statement : Statement}
    (spelled : ∀ name ∈ statement.spelledNames, flavor.quote ∉ name.toList) :
    (∃ error, format flavor.dialect options statement = .error error ∧
        format flavor.dialect options' statement = .error error) ∨
      ∃ text text' parameters,
        format flavor.dialect options statement = .ok ⟨text, parameters⟩ ∧
          format flavor.dialect options' statement = .ok ⟨text', parameters⟩ ∧
          normal flavor.quote text.toList = normal flavor.quote text'.toList ∧
          words flavor.quote text.toList = words flavor.quote text'.toList := by
  have result := format_eq flavor options statement
  have result' := format_eq flavor options' statement
  cases first : (statement.offending flavor).head?.bind flavor.offence with
  | some error =>
    rw [first] at result result'
    exact .inl ⟨error, result, result'⟩
  | none =>
    rw [first] at result result'
    have bare : ∀ name ∈ statement.bareNames, flavor.quote ∉ name.toList :=
      fun name member => spelled name (Tree.mem_spelledNames result member)
    have same := Tree.same_spacing flavor options options' bare
    refine .inr ⟨_, _, _, result, result', same, ?_⟩
    have proper := proper_quote flavor
    calc words flavor.quote (statement.formatted flavor options.layout).sql.toList
        = words flavor.quote
            (normal flavor.quote (statement.formatted flavor options.layout).sql.toList) :=
          (words_normal proper _).symm
      _ = words flavor.quote
            (normal flavor.quote (statement.formatted flavor options'.layout).sql.toList) := by
          rw [same]
      _ = words flavor.quote (statement.formatted flavor options'.layout).sql.toList :=
          words_normal proper _

/-- Names in lower case, from and without books. Two of the quoted names have white space of their
own, one of them next to a bracket. -/
def nameList : Statement :=
  let name : Scalar := .column ⟨0, { name := "first\n( name", type := .text }⟩
  let lower : Scalar := .call 1 "lower" (.cons name .nil) .text
  let books : Query :=
    .select 3 .nil (.table ⟨2, { name := "book" }⟩) .absent .nil .absent false .nil {}
  .queryStatement
    (.select 4 (.cons lower .nil) (.subquery 5 books (some "b  1"))
      (.present (.existsQuery 6 books true)) .nil .absent false .nil { limit := some 3 })

def nameListLines : Formatted where
  sql := "SELECT lower(\"first\n( name\")\nFROM (\n    SELECT *\n    FROM \"book\"\n) \"b  1\"\n"
    ++ "WHERE NOT EXISTS (\n    SELECT *\n    FROM \"book\"\n)\nOFFSET ? LIMIT ?"
  parameters := [⟨.int 0, .long⟩, ⟨.int 3, .long⟩]

def nameListLine : Formatted where
  sql := "SELECT lower(\"first\n( name\") FROM (SELECT * FROM \"book\") \"b  1\" "
    ++ "WHERE NOT EXISTS (SELECT * FROM \"book\") OFFSET ? LIMIT ?"
  parameters := [⟨.int 0, .long⟩, ⟨.int 3, .long⟩]

theorem format_same_up_to_spacing_nameList :
    (∀ name ∈ nameList.spelledNames, '"' ∉ name.toList) ∧
      format Flavor.generic.dialect (.pretty 4) nameList = .ok nameListLines ∧
      format Flavor.generic.dialect .compact nameList = .ok nameListLine ∧
      normal '"' nameListLines.sql.toList = normal '"' nameListLine.sql.toList ∧
      words '"' nameListLines.sql.toList = words '"' nameListLine.sql.toList := by
  have spelled : ∀ name ∈ nameList.spelledNames, '"' ∉ name.toList := by
    have lower : nameList.spelledNames = ["lower"] := rfl
    rw [lower, List.forall_mem_singleton]
    decide
  have lines : format Flavor.generic.dialect (.pretty 4) nameList = .ok nameListLines :=
    format_eq_ok (by decide +kernel)
  have line : format Flavor.generic.dialect .compact nameList = .ok nameListLine :=
    format_eq_ok (by decide +kernel)
  refine ⟨spelled, lines, line, ?_⟩
  obtain ⟨error, failed, -⟩ | ⟨text, text', parameters, one, two, same⟩ :=
    format_same_up_to_spacing .generic (.pretty 4) .compact spelled
  · cases lines.symm.trans failed
  · have first : nameListLines = ⟨text, parameters⟩ := Except.ok.inj (lines.symm.trans one)
    have second : nameListLine = ⟨text', parameters⟩ := Except.ok.inj (line.symm.trans two)
    rw [first, second]
    exact same

end SqlTree
