import SqlTree.Proofs.Format.Failure
import SqlTree.Proofs.Text.Masking

/-!
# Names stay in their quotes

Whatever the names in a statement are, the rest of its text is the same: a name can neither end
early, nor reach behind its closing quote, nor join the next one. Only names that are spelled
without quotes have to be free of them.
-/

namespace SqlTree

open Masking

/-- A tree shows the names that it spells, and the kinds of nodes that no flavor knows. -/
theorem Tree.mem_bareNames {c : Category} {tree : Tree c} {name : String}
    (bare : name ∈ tree.bareNames) :
    name ∈ tree.spelledNames ∨ ∃ id node, Tree.foreign id node ∈ tree.extensionNodes := by
  obtain ⟨⟨c, node⟩, member, named⟩ := Tree.mem_collect_before.mp bare
  cases node with
  | call id name arguments type => exact .inl (Tree.mem_collect_before.mpr ⟨_, member, named⟩)
  | cast id expr type =>
    cases type with
    | custom name => exact .inl (Tree.mem_collect_before.mpr ⟨_, member, named⟩)
    | _ => cases named
  | foreign id node =>
    exact .inr ⟨id, node, Tree.mem_collect_before.mpr ⟨_, member, List.mem_cons_self⟩⟩
  | _ => cases named

/-- A statement that can be formatted shows only names that it spells. -/
theorem Tree.mem_spelledNames {flavor : Flavor} {options : FormatOptions} {statement : Statement}
    {formatted : Formatted} (success : format flavor.dialect options statement = .ok formatted)
    {name : String} (bare : name ∈ statement.bareNames) : name ∈ statement.spelledNames := by
  obtain spelled | ⟨id, node, member⟩ := Tree.mem_bareNames bare
  · exact spelled
  · have harmless := (format_succeeds_iff flavor options statement).mp ⟨formatted, success⟩
    have wrong : (flavor.offence (.foreign id node)).isSome = true := by cases flavor <;> rfl
    exact absurd wrong (List.filter_eq_nil_iff.mp harmless _ member)

/-- The quote of a flavor is no white space. -/
theorem Flavor.isBlank_quote (flavor : Flavor) : Blank.isBlank flavor.quote = false := by
  cases flavor <;> rfl

/-- Whatever the names of tables and columns are, and whatever else stands in quotes, the text
around them and the parameters are the same, and every name that is opened is closed. -/
theorem format_same_mask_of_names (flavor : Flavor) (options : FormatOptions) {a b : Statement}
    (alike : a.Alike .names b)
    (spelled : ∀ name ∈ a.spelledNames, flavor.quote ∉ name.toList)
    {left right : Formatted} (leftText : format flavor.dialect options a = .ok left)
    (rightText : format flavor.dialect options b = .ok right) :
    mask flavor.quote left.sql.toList = mask flavor.quote right.sql.toList ∧
      Ended flavor.quote left.sql.toList ∧ Ended flavor.quote right.sql.toList ∧
      left.parameters = right.parameters := by
  have bare : ∀ name ∈ a.bareNames, flavor.quote ∉ name.toList :=
    fun name member => spelled name (Tree.mem_spelledNames leftText member)
  have same : Same flavor.quote (a.render flavor options.layout 0)
      (b.render flavor options.layout 0) :=
    alike.render (parallel_names flavor options) bare 0
  have parameters : List.Forall₂ Eq a.parameters b.parameters := by
    refine alike.parameters (Q := Eq) (fun same => same) ?_ ?_
    · rintro page _ rfl
      exact List.forall₂_refl _
    · rintro search _ rfl
      rfl
  rw [List.forall₂_eq_eq_eq] at parameters
  -- Blanks in front of the two texts are cut off, and no quote is one.
  have visible := flavor.isBlank_quote
  rw [format_eq_formatted leftText, format_eq_formatted rightText]
  simp only [Tree.formatted, String.toList_ofList]
  refine ⟨?_, same.ended.dropWhile visible, same.ended'.dropWhile visible, parameters⟩
  rw [mask_dropWhile visible, mask_dropWhile visible, same.same]

def lowerNames (schema table aliasName column title : String) : Statement :=
  let name : Scalar := .column ⟨0, { table := some aliasName, name := column, type := .text }⟩
  let lower : Scalar := .call 1 "lower" (.cons name .nil) .text
  .queryStatement
    (.select 2 (.cons (.declare 3 lower (some title)) .nil)
      (.table ⟨4, { name := table, aliasName := some aliasName, schema := some schema }⟩)
      .absent .nil .absent false .nil {})

/-- The same query with all of its quoted names replaced. -/
theorem lowerNames_alike (schema schema' table table' aliasName aliasName' column column' title
      title' : String) :
    (lowerNames schema table aliasName column title).Alike .names
      (lowerNames schema' table' aliasName' column' title') := by
  have self {c : Category} (tree : Tree c) : tree.Alike .names tree :=
    tree.alike_self Likeness.names_reflexive
  have form {c : Category} {s : Slot} (form : Form c s) : form.Alike .names form :=
    form.alike_self Likeness.names_reflexive
  have names : Alike .names .column
      ⟨0, { table := some aliasName, name := column, type := .text }⟩
      ⟨0, { table := some aliasName', name := column', type := .text }⟩ :=
    .column ⟨.some trivial, trivial, rfl⟩
  have titles : (Form.declare (some title)).Alike .names (.declare (some title')) :=
    .declare (.some trivial)
  have tables : Alike .names .table
      ⟨4, { name := table, aliasName := some aliasName, schema := some schema }⟩
      ⟨4, { name := table', aliasName := some aliasName', schema := some schema' }⟩ :=
    .table ⟨trivial, .some trivial, .none, .some trivial⟩
  have lower := Alike.node 1 1 (form (.call "lower" .text))
    (.frame .cons (.pair (.frame .column names) (self .nil)))
  have declared := Alike.frame .cons (.pair (.node 3 3 titles lower) (self .nil))
  exact .frame .queryStatement (.node 2 2 (form (.select false {}))
    (.pair (.pair (.pair (.pair (.pair declared (.frame .table tables)) (self .absent)) (self .nil))
      (self .absent)) (self .nil)))

/-- Names that try to end early, to bring a placeholder and to comment out the rest. -/
theorem format_same_mask_of_names_lowerNames :
    let plain := lowerNames "public" "book" "b" "name" "title"
    let hostile := lowerNames "\"" "bo\"\"ok" "b\" -- ?" ") FROM (" "\n\""
    plain.Alike .names hostile ∧ (∀ name ∈ plain.spelledNames, '"' ∉ name.toList) ∧
      ∃ left right, format Flavor.generic.dialect {} plain = .ok left ∧
        format Flavor.generic.dialect {} hostile = .ok right ∧
        mask '"' left.sql.toList = mask '"' right.sql.toList ∧ Ended '"' left.sql.toList ∧
        Ended '"' right.sql.toList ∧ left.parameters = right.parameters := by
  intro plain hostile
  have alike : plain.Alike .names hostile := lowerNames_alike _ _ _ _ _ _ _ _ _ _
  have spelled : ∀ name ∈ plain.spelledNames, '"' ∉ name.toList := by
    have lower : plain.spelledNames = ["lower"] := rfl
    rw [lower, List.forall_mem_singleton]
    decide
  have left : format Flavor.generic.dialect {} plain = .ok
      { sql := "SELECT lower(\"b\".\"name\") AS \"title\" FROM \"public\".\"book\" \"b\""
        parameters := [] } :=
    format_eq_ok (by decide +kernel)
  have right : format Flavor.generic.dialect {} hostile = .ok
      { sql := "SELECT lower(\"b\"\" -- ?\".\") FROM (\") AS \"\n\"\"\" "
          ++ "FROM \"\"\"\".\"bo\"\"\"\"ok\" \"b\"\" -- ?\""
        parameters := [] } :=
    format_eq_ok (by decide +kernel)
  exact ⟨alike, spelled, _, _, left, right,
    format_same_mask_of_names .generic {} alike spelled left right⟩

end SqlTree
