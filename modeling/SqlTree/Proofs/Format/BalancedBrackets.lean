import SqlTree.Proofs.Format.QuotedNames
import SqlTree.Proofs.Text.Balance

/-!
# Brackets in the text of a statement

Opening and closing brackets are written by different steps, with whole trees between them. In the
text of a statement they belong together nevertheless, whatever brackets and quotes the names have
that it quotes.
-/

namespace SqlTree

open Brackets Masking

/-- The text of a statement is closed if the names are that stand in it without quotes. -/
theorem Tree.closed_render (flavor : Flavor) (options : FormatOptions) {statement : Statement}
    (bare : ∀ name ∈ statement.bareNames, Closed flavor.quote name.toList) :
    Closed flavor.quote (statement.render flavor options.layout 0) := by
  have alike : statement.Alike .equal statement := statement.alike_self Likeness.equal_reflexive
  exact alike.render (inherited_closed flavor options).parallel bare 0

/-- **Brackets balance.** In the text of a statement no prefix has more closing than opening
brackets, and there are as many of one as of the other, where quoted names do not count and may be
anything. Names that are spelled without quotes must be free of them, and balanced in themselves. -/
theorem format_brackets_balanced (flavor : Flavor) (options : FormatOptions)
    {statement : Statement}
    (spelled : ∀ name ∈ statement.spelledNames,
      flavor.quote ∉ name.toList ∧ Balanced flavor.quote name.toList)
    {formatted : Formatted} (success : format flavor.dialect options statement = .ok formatted) :
    Balanced flavor.quote formatted.sql.toList := by
  have bare : ∀ name ∈ statement.bareNames, Closed flavor.quote name.toList := by
    intro name member
    obtain ⟨free, balanced⟩ := spelled name (Tree.mem_spelledNames success member)
    exact closed_iff.mpr ⟨.of_free free, balanced⟩
  have closed := Tree.closed_render flavor options bare
  -- Blanks in front of the text are cut off; neither quotes nor brackets are blanks.
  have visible : [flavor.quote, '(', ')'].any Blank.isBlank = false := by cases flavor <;> rfl
  rw [format_eq_formatted success, Tree.formatted, String.toList_ofList]
  exact (closed_iff.mp (closed.dropWhile visible)).2

/-- A list of names that has brackets and quotes where they do harm, with a function and a type
whose own names have brackets. -/
def bracketedNames : Statement :=
  let name : Scalar := .column ⟨0, { table := some "b(\"", name := ")))", type := .text }⟩
  let called : Scalar := .call 1 "now(3)utc" (.cons name .nil) .text
  let converted : Scalar := .cast 2 name (.custom "numeric(6,(2))")
  .queryStatement
    (.select 3 (.cons (.declare 4 called (some "\")(")) (.cons converted .nil))
      (.table ⟨5, { name := "book", aliasName := some "b(\"" }⟩) .absent .nil .absent false .nil {})

theorem format_brackets_balanced_bracketedNames :
    (∀ name ∈ bracketedNames.spelledNames, '"' ∉ name.toList ∧ Balanced '"' name.toList) ∧
      ∃ formatted, format Flavor.postgresql.dialect {} bracketedNames = .ok formatted ∧
        formatted.sql = "SELECT now(3)utc(\"b(\"\"\".\")))\") AS \"\"\")(\", "
          ++ "CAST(\"b(\"\"\".\")))\" AS numeric(6,(2))) FROM \"book\" \"b(\"\"\"" ∧
        Balanced '"' formatted.sql.toList := by
  have spelled : ∀ name ∈ bracketedNames.spelledNames,
      '"' ∉ name.toList ∧ Balanced '"' name.toList := by
    have names : bracketedNames.spelledNames = ["now(3)utc", "numeric(6,(2))"] := rfl
    rw [names, List.forall_mem_cons, List.forall_mem_singleton]
    decide
  have success : format Flavor.postgresql.dialect {} bracketedNames = .ok
      { sql := "SELECT now(3)utc(\"b(\"\"\".\")))\") AS \"\"\")(\", "
          ++ "CAST(\"b(\"\"\".\")))\" AS numeric(6,(2))) FROM \"book\" \"b(\"\"\""
        parameters := [] } :=
    format_eq_ok (by decide +kernel)
  exact ⟨spelled, _, success, rfl, format_brackets_balanced .postgresql {} spelled success⟩

end SqlTree
