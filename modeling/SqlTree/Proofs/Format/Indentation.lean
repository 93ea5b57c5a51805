import SqlTree.Proofs.Format.QuotedNames
import SqlTree.Proofs.Text.Nesting

/-!
# Indentation

The depth by which a formatter indents is a number that goes up and down while a statement is
written. In the text it can be seen again: it is the number of brackets around a line break that are
followed by a line break themselves.
-/

namespace SqlTree

open Brackets Masking Nesting

/-- The text of a statement is indented, if the names that stand in it without quotes are bare. -/
theorem Tree.indented_render (flavor : Flavor) (width : Nat → Nat) {statement : Statement}
    (bare : ∀ name ∈ statement.bareNames, Bare flavor name.toList) :
    Indented flavor.quote width 0 (statement.render flavor (.lines width) 0) := by
  have alike : statement.Alike .equal statement := statement.alike_self Likeness.equal_reflexive
  exact alike.texts (graded_indented flavor width) bare 0

/-- **Indentation mirrors nesting.** In the text of a statement, with clauses on lines of their own,
every line break outside quoted names comes behind a character that is no white space, and is
followed by blanks and a character that is none. The number of blanks is the indentation of one
level, which is at most 16, for each bracket around that place that is directly followed by a line
break; the bracket that the next character closes does not count. The number is exact as long as it
is a 64-bit one, which it is in every text shorter than that. Names that are spelled without quotes
must be free of quotes and white space, and balanced in themselves. -/
theorem format_indents_nesting (flavor : Flavor) (indentSize : UInt64) {statement : Statement}
    (spelled : ∀ name ∈ statement.spelledNames,
      flavor.quote ∉ name.toList ∧ (∀ c ∈ name.toList, Blank.isBlank c = false) ∧
        Balanced flavor.quote name.toList)
    {formatted : Formatted}
    (success : format flavor.dialect (.pretty indentSize) statement = .ok formatted)
    {front back : List Char} (split : formatted.sql.toList = front ++ '\n' :: back)
    (outside : Ended flavor.quote front) :
    EndsNonblank front ∧ ∃ blanks next rest,
      back = List.replicate blanks ' ' ++ next :: rest ∧ Blank.isBlank next = false ∧
      blanks = min
        (level (enclosing flavor.quote (front ++ ['\n'])) next * min indentSize.toNat 16)
        (UInt64.size - 1) ∧
      (formatted.sql.length < UInt64.size - 1 →
        blanks =
          level (enclosing flavor.quote (front ++ ['\n'])) next * min indentSize.toNat 16) := by
  have bare : ∀ name ∈ statement.bareNames, Bare flavor name.toList := by
    intro name member
    obtain ⟨free, noBlank, balanced⟩ := spelled name (Tree.mem_spelledNames success member)
    have noBreak : '\n' ∉ name.toList := fun found => absurd (noBlank _ found) (by decide)
    exact ⟨⟨free, noBreak, closed_iff.mpr ⟨.of_free free, balanced⟩⟩, noBlank⟩
  have indented := Tree.indented_render flavor (FormatOptions.pretty indentSize).indentWidth bare
  -- The text has no blanks in front of it that could be cut off.
  have sql : formatted.sql.toList =
      statement.render flavor (.lines (FormatOptions.pretty indentSize).indentWidth) 0 := by
    obtain ⟨first, found, visible, -⟩ := indented.starts
    obtain ⟨rest, spelledOut⟩ := List.head?_eq_some_iff.mp found
    have layout : (FormatOptions.pretty indentSize).layout =
        .lines (FormatOptions.pretty indentSize).indentWidth := rfl
    rw [format_eq_formatted success, Tree.formatted, String.toList_ofList, layout, spelledOut,
      List.dropWhile_cons_of_neg (by simp [visible])]
  have passes := indented.passes {} rfl rfl
  obtain ⟨ends, blanks, next, rest, rfl, visible, count⟩ :=
    passes.breaks front back (sql.symm.trans split) (quoted_read_of_ended outside)
  refine ⟨ends, blanks, next, rest, rfl, visible, count, fun short => ?_⟩
  have within : blanks < UInt64.size - 1 := by
    have length := congrArg List.length split
    simp only [String.length_toList, List.length_append, List.length_cons,
      List.length_replicate] at length
    omega
  have saturated : blanks = min
      (level (enclosing flavor.quote (front ++ ['\n'])) next * min indentSize.toNat 16)
      (UInt64.size - 1) := count
  omega

/-- The books of which a shop is found, with a function and tables whose names have brackets. One
name has a line break behind its bracket. -/
def stockedBooks : Statement :=
  let shops : Query :=
    .select 0 .nil (.table ⟨1, { name := "sh)op" }⟩) .absent .nil .absent false .nil {}
  let stocked : Scalar := .call 2 "is(3)set" (.cons (.existsQuery 3 shops false) .nil) .boolean
  let books : Query := .select 4 .nil (.table ⟨5, { name := "bo(\nok" }⟩) (.present stocked) .nil
    .absent false .nil {}
  .queryStatement (.select 6 .nil (.subquery 7 books (some "b")) .absent .nil .absent false .nil {})

/-- The line break in front of the brackets that close the inner query and the call: of the three
brackets around it, the call's has no line break behind it, and the innermost one is closed next. -/
theorem format_indents_nesting_stockedBooks :
    (∀ name ∈ stockedBooks.spelledNames, '\x60' ∉ name.toList ∧
      (∀ c ∈ name.toList, Blank.isBlank c = false) ∧ Balanced '\x60' name.toList) ∧
    ∃ formatted front back,
      format Flavor.mysql.dialect (.pretty 20) stockedBooks = .ok formatted ∧
      formatted.sql.toList = front ++ '\n' :: back ∧ Ended '\x60' front ∧
      enclosing '\x60' (front ++ ['\n']) = [true, false, true] ∧
      EndsNonblank front ∧ ∃ blanks next rest,
        back = List.replicate blanks ' ' ++ next :: rest ∧ Blank.isBlank next = false ∧
        blanks = min (level (enclosing '\x60' (front ++ ['\n'])) next * 16) (UInt64.size - 1) ∧
        (formatted.sql.length < UInt64.size - 1 →
          blanks = level (enclosing '\x60' (front ++ ['\n'])) next * 16) := by
  have spelled : ∀ name ∈ stockedBooks.spelledNames, '\x60' ∉ name.toList ∧
      (∀ c ∈ name.toList, Blank.isBlank c = false) ∧ Balanced '\x60' name.toList := by
    have names : stockedBooks.spelledNames = ["is(3)set"] := rfl
    have noBlank : "is(3)set".toList.all (!Blank.isBlank ·) = true := by decide
    rw [names, List.forall_mem_singleton]
    refine ⟨by decide, fun c member => ?_, by decide⟩
    simpa using List.all_eq_true.mp noBlank c member
  let step := List.replicate 16 ' '
  let front := "SELECT *\nFROM (\n".toList ++ step ++ "SELECT *\n".toList
    ++ step ++ "FROM \x60bo(\nok\x60\n".toList ++ step ++ "WHERE is(3)set(EXISTS (\n".toList
    ++ step ++ step ++ "SELECT *\n".toList ++ step ++ step ++ "FROM \x60sh)op\x60".toList
  let back := step ++ "))\n) \x60b\x60".toList
  have success : format Flavor.mysql.dialect (.pretty 20) stockedBooks = .ok
      { sql := String.ofList (front ++ '\n' :: back), parameters := [] } :=
    format_eq_ok (by decide +kernel)
  have outside : Masking.Place.outside.after '\x60' front ≠ .inside := by decide +kernel
  have brackets : enclosing '\x60' (front ++ ['\n']) = [true, false, true] := by decide +kernel
  have split : (String.ofList (front ++ '\n' :: back)).toList = front ++ '\n' :: back :=
    String.toList_ofList
  exact ⟨spelled, _, _, _, success, split, outside, brackets,
    format_indents_nesting .mysql 20 spelled success split outside⟩

end SqlTree
