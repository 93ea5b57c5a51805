import SqlTree.Proofs.Format.Rendering

/-!
# The text on one line

Compact formatting returns the text that the grammar gives the statement, character for character.
The blanks that the formatter puts behind every word and takes back again leave no trace: trimming
removes the last one and nothing else.
-/

namespace SqlTree

/-- A format that succeeds has written the text of the statement and one blank. -/
theorem format_buffer {flavor : Flavor} {options : FormatOptions} {statement : Statement}
    {formatted : Formatted} (success : format flavor.dialect options statement = .ok formatted) :
    ∃ f : Formatter, formatted = f.result ∧
      f.buffer.toList = statement.render flavor options.layout 0 ++ [' '] := by
  obtain ⟨f, ran, returned⟩ := format_ok success
  have writes : Script.Writes flavor options 0 statement.script
      (statement.render flavor options.layout 0) := statement.writes_script flavor options 0
  obtain ⟨written, -⟩ := writes [] {} f rfl rfl ran
  exact ⟨f, returned, written⟩

/-- The size of an indent does not matter where there are no lines. -/
theorem FormatOptions.layout_eq_compact {options : FormatOptions}
    (compact : options.beautify = false) : options.layout = .compact := by
  rw [FormatOptions.layout, compact, if_neg Bool.false_ne_true]

/-- Compact formatting of a statement whose function names do not start with white space returns the
text of the grammar, which has no white space at either end. -/
theorem format_sql_eq_render (flavor : Flavor) (options : FormatOptions) (statement : Statement)
    (formatted : Formatted) (compact : options.beautify = false)
    (names : ∀ name ∈ statement.callNames, OpensNonblank name)
    (success : format flavor.dialect options statement = .ok formatted) :
    formatted.sql.toList = statement.render flavor .compact 0 ∧
      StartsNonblank formatted.sql.toList ∧ EndsNonblank formatted.sql.toList := by
  have nonblank : NonblankEnds True (statement.render flavor .compact 0) :=
    statement.nonblankTexts_render flavor .compact 0 fun _ => names
  obtain ⟨f, returned, written⟩ := format_buffer success
  rw [FormatOptions.layout_eq_compact compact] at written
  have sql : formatted.sql.toList = statement.render flavor .compact 0 :=
    calc formatted.sql.toList
        = Blank.trim f.buffer.toList := by rw [returned, Formatter.result, String.toList_ofList]
      _ = Blank.trim (statement.render flavor .compact 0 ++ [' ']) := by rw [written]
      _ = statement.render flavor .compact 0 :=
        Blank.trim_append_blank (nonblank.starts trivial) nonblank.ends
  rw [sql]
  exact ⟨rfl, nonblank.starts trivial, nonblank.ends⟩

/-- A count and a call over a union in brackets, with an extension node as an operand. -/
def titleKeys : Statement :=
  let title : Scalar := .column ⟨1, { name := "title", type := .varchar none }⟩
  let pattern : Scalar := .argument ⟨2, ⟨.text "a%", .varchar none⟩⟩
  let key : Scalar := .declare 3 (.call 4 "lower" (.cons title .nil) (.varchar none)) (some "key")
  let alike : Scalar := .scalarExtension (.ilike 5 title pattern)
  let allOf (id : NodeId) (name : String) : Query :=
    .select id .nil (.table ⟨id + 1, { name := name }⟩) .absent .nil .absent false .nil {}
  .queryStatement
    (.select 6 (.cons (.aggregate 7 .count .absent false .long) (.cons key .nil))
      (.subquery 8 (.union 9 (allOf 10 "book") (allOf 12 "draft") true .nil {}) (some "b"))
      (.present (.unary 14 .not alike .boolean)) (.cons title .nil) .absent true .nil
      { limit := some 5 })

def titleKeysText : Formatted where
  sql := "SELECT DISTINCT COUNT(*), lower(\"title\") AS \"key\" FROM "
    ++ "((SELECT * FROM \"book\") UNION ALL (SELECT * FROM \"draft\")) \"b\" "
    ++ "WHERE NOT (\"title\" ILIKE ?) GROUP BY \"title\" OFFSET ? LIMIT ?"
  parameters := [⟨.text "a%", .varchar none⟩, ⟨.int 0, .long⟩, ⟨.int 5, .long⟩]

theorem format_sql_eq_render_titleKeys :
    (titleKeys.callNames = ["lower"] ∧ OpensNonblank "lower" ∧
        format Flavor.postgresql.dialect {} titleKeys = .ok titleKeysText) ∧
      titleKeysText.sql.toList = titleKeys.render .postgresql .compact 0 ∧
        StartsNonblank titleKeysText.sql.toList ∧ EndsNonblank titleKeysText.sql.toList := by
  have called : titleKeys.callNames = ["lower"] := by decide +kernel
  have opens : OpensNonblank "lower" := by decide +kernel
  have names : ∀ name ∈ titleKeys.callNames, OpensNonblank name := by
    rw [called]
    exact List.forall_mem_singleton.mpr opens
  have success : format Flavor.postgresql.dialect {} titleKeys = .ok titleKeysText :=
    format_eq_ok (by decide +kernel)
  exact ⟨⟨called, opens, success⟩,
    format_sql_eq_render .postgresql {} titleKeys titleKeysText rfl names success⟩

end SqlTree
