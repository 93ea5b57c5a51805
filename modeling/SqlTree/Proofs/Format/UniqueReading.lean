import SqlTree.Proofs.Format.CompactText
import SqlTree.Proofs.Format.Success
import SqlTree.Proofs.Text.ReadBack

/-!
# Operator expressions are uniquely readable

The text of an operator expression says which expression it is: two of them have the same text in
the same dialect exactly if they are shown alike. Brackets around operands, doubled quotes and the
places of operators leave nothing open, whatever the names of the columns are.
-/

namespace SqlTree

/-! ## Operator expressions have no extension nodes -/

/-- Operator expressions have no extension nodes. -/
theorem Tree.extensionNodes_of_operational {c : Category} {tree : Tree c}
    (operational : tree.operational = true) : tree.extensionNodes = [] := by
  have both {first second : List Extension} (noFirst : first = []) (noSecond : second = []) :
      first ++ second = [] := List.append_eq_nil_iff.mpr ⟨noFirst, noSecond⟩
  have enclosed {parts : List Extension} (inside : parts = []) : [] ++ parts ++ [] = [] :=
    both (both rfl inside) rfl
  induction tree with
  | column | argument | nil | absent => rfl
  | binary _ _ _ _ _ ihLeft ihRight =>
    obtain ⟨left, right⟩ := Bool.and_eq_true_iff.mp operational
    exact enclosed (both (ihLeft left) (ihRight right))
  | unary _ _ _ _ ih | aggregate _ _ _ _ _ ih => exact enclosed (ih operational)
  | between _ _ _ _ _ ihExpr ihLower ihUpper =>
    obtain ⟨front, upper⟩ := Bool.and_eq_true_iff.mp operational
    obtain ⟨expr, lower⟩ := Bool.and_eq_true_iff.mp front
    exact enclosed (both (both (ihExpr expr) (ihLower lower)) (ihUpper upper))
  | inValues _ _ _ _ ihLeft ihValues =>
    obtain ⟨left, values⟩ := Bool.and_eq_true_iff.mp operational
    exact enclosed (both (ihLeft left) (ihValues values))
  | call _ _ _ _ ih => exact enclosed (ih (Bool.and_eq_true_iff.mp operational).2)
  | cast _ expr type ih => exact enclosed (ih (Tree.cast_operational operational).2)
  | cons _ _ ihHead ihTail =>
    obtain ⟨head, tail⟩ := Bool.and_eq_true_iff.mp operational
    exact both (ihHead head) (ihTail tail)
  | present _ ih => exact ih operational
  | _ => cases operational

/-! ## The text shows nothing more -/

/-- Brackets do not depend on the labels that a text does not show. -/
theorem Tree.needsBrackets_shown (node : Scalar) :
    node.shown.needsBrackets = node.needsBrackets := by
  cases node <;> rfl

open Grammar in
/-- What is shown of an operator expression has the same text. -/
theorem Tree.render_shown (flavor : Flavor) (layout : Layout) (depth : Nat) {c : Category}
    {tree : Tree c} (operational : tree.operational = true) :
    tree.shown.render flavor layout depth = tree.render flavor layout depth := by
  have operandEq {node : Scalar}
      (same : node.shown.render flavor layout depth = node.render flavor layout depth) :
      operand node.shown (node.shown.render flavor layout depth) =
        operand node (node.render flavor layout depth) := by
    rw [operand, operand, node.needsBrackets_shown, same]
  induction tree with
  | column | argument | nil | absent => rfl
  | binary id op left right type ihLeft ihRight =>
    obtain ⟨leftOk, rightOk⟩ := Bool.and_eq_true_iff.mp operational
    exact congrArg₂ (fun first second => phrase [first, op.symbol.toList, second])
      (operandEq (ihLeft leftOk)) (operandEq (ihRight rightOk))
  | unary id op inner type ih =>
    exact congrArg (fun text => if op.followsOperand then phrase [text, op.symbol.toList]
      else phrase [op.symbol.toList, text]) (operandEq (ih operational))
  | between id expr lower upper negated ihExpr ihLower ihUpper =>
    obtain ⟨front, upperOk⟩ := Bool.and_eq_true_iff.mp operational
    obtain ⟨exprOk, lowerOk⟩ := Bool.and_eq_true_iff.mp front
    have bounded := congrArg₂ (fun first second third => phrase ([first] ++ wordIf negated "NOT"
        ++ ["BETWEEN".toList, second, "AND".toList, third]))
      (operandEq (ihExpr exprOk)) (operandEq (ihLower lowerOk))
    exact (congr bounded (operandEq (ihUpper upperOk)) :)
  | inValues id left values negated ihLeft ihValues =>
    obtain ⟨leftOk, valuesOk⟩ := Bool.and_eq_true_iff.mp operational
    exact congrArg₂ (fun first second => phrase ([first] ++ wordIf negated "NOT"
        ++ ["IN".toList, bracketed (listed second)]))
      (operandEq (ihLeft leftOk)) (ihValues valuesOk)
  | aggregate id function inner distinct type ih =>
    exact congrArg (fun (text : Option (List Char)) => function.symbol.toList
      ++ bracketed (phrase (wordIf distinct "DISTINCT" ++ [text.getD ['*']]))) (ih operational)
  | call id name arguments type ih =>
    exact congrArg (fun texts => name.toList ++ bracketed (listed texts))
      (ih (Bool.and_eq_true_iff.mp operational).2)
  | cast id expr type ih =>
    exact congrArg (fun text => "CAST".toList
      ++ bracketed (phrase [text, "AS".toList, type.name.toList]))
      (ih (Tree.cast_operational operational).2)
  | cons head tail ihHead ihTail =>
    obtain ⟨headOk, tailOk⟩ := Bool.and_eq_true_iff.mp operational
    exact congrArg₂ List.cons (ihHead headOk) (ihTail tailOk)
  | present content ih => exact congrArg some (ih operational)
  | _ => cases operational

/-! ## The text on its own -/

theorem Word.isBlank_of_isPart {c : Char} (part : isPart c = true) : Blank.isBlank c = false := by
  have classes : isPart c = (((decide ('A'.val ≤ c.val ∧ c.val ≤ 'Z'.val) ||
      ('a'.val ≤ c.val && c.val ≤ 'z'.val)) || ('0'.val ≤ c.val && c.val ≤ '9'.val)) ||
      c == '_') := rfl
  simp only [classes, Bool.or_eq_true, Bool.and_eq_true, decide_eq_true_eq, beq_iff_eq,
    UInt32.le_iff_toNat_le] at part
  -- Between the digits and the last letter there is no white space.
  have within : 48 ≤ c.toNat ∧ c.toNat ≤ 122 := by
    rcases part with ((upper | lower) | digit) | rfl
    · exact ⟨Nat.le_trans (by decide) upper.1, Nat.le_trans upper.2 (by decide)⟩
    · exact ⟨Nat.le_trans (by decide) lower.1, lower.2⟩
    · exact ⟨digit.1, Nat.le_trans digit.2 (by decide)⟩
    · decide
  simp only [Blank.isBlank, Blank.ranges, List.any_cons, List.any_nil, Bool.or_false,
    Bool.or_eq_false_iff, Bool.and_eq_false_iff, decide_eq_false_iff_not]
  omega

theorem Reading.Opens.startsNonblank {flavor : Flavor} {text : List Char}
    (opens : Opens flavor text) : StartsNonblank text := by
  cases opens with
  | operand begins =>
    cases begins with
    | @bracket word parts rest =>
      cases word with
      | nil => exact ⟨'(', rfl, by decide⟩
      | cons c word =>
        rw [List.all_cons, Bool.and_eq_true] at parts
        exact ⟨c, rfl, Word.isBlank_of_isPart parts.1⟩
    | quote rest => exact ⟨flavor.quote, rfl, by cases flavor <;> decide⟩
    | placeholder rest => exact ⟨'?', rfl, by decide⟩
  | operator leads rest =>
    obtain rfl | rfl | rfl := leading_cases leads
    · exact ⟨'-', rfl, by decide⟩
    · exact ⟨'+', rfl, by decide⟩
    · exact ⟨'N', rfl, by decide⟩

/-- Formatting returns the text of the grammar, if that has no white space in front. -/
theorem format_eq_render (flavor : Flavor) (options : FormatOptions) {statement : Statement}
    (base : statement.extensionNodes = [])
    (starts : StartsNonblank (statement.render flavor options.layout 0)) :
    ∃ formatted, format flavor.dialect options statement = .ok formatted ∧
      formatted.sql.toList = statement.render flavor options.layout 0 := by
  obtain ⟨formatted, success⟩ := format_succeeds flavor options base
  obtain ⟨f, returned, written⟩ := format_buffer success
  have nonblank : NonblankEnds False (statement.render flavor options.layout 0) :=
    statement.nonblankTexts_render flavor options.layout 0 False.elim
  refine ⟨formatted, success, ?_⟩
  rw [returned, Formatter.result, String.toList_ofList, written]
  exact Blank.trim_append_blank starts nonblank.ends

/-- Operator expressions are always formatted, and trimming takes nothing of their text away. -/
theorem format_operational (flavor : Flavor) (options : FormatOptions) {a : Scalar}
    (operational : a.operational = true) :
    ∃ formatted, format flavor.dialect options (.scalarStatement a) = .ok formatted ∧
      formatted.sql.toList = a.render flavor options.layout 0 := by
  have base : (Tree.scalarStatement a).extensionNodes = [] :=
    (List.append_nil _).trans (Tree.extensionNodes_of_operational operational)
  have legible : Reading.Legible flavor a (a.render flavor options.layout 0) :=
    a.readsBack flavor options.layout 0 operational
  exact format_eq_render flavor options base legible.opens.startsNonblank

/-- Two operator expressions have the same text in some dialect and layout exactly if they are shown
alike: they have the same operators, names and lists, nested in the same way. -/
theorem operational_sql_eq_iff (flavor : Flavor) (options : FormatOptions) (a b : Scalar)
    (first : a.operational = true) (second : b.operational = true) :
    ∃ x y, format flavor.dialect options (.scalarStatement a) = .ok x ∧
      format flavor.dialect options (.scalarStatement b) = .ok y ∧
      (x.sql = y.sql ↔ a.shown = b.shown) := by
  obtain ⟨x, formattedFirst, textFirst⟩ := format_operational flavor options first
  obtain ⟨y, formattedSecond, textSecond⟩ := format_operational flavor options second
  refine ⟨x, y, formattedFirst, formattedSecond, fun same => ?_, fun same => ?_⟩
  · have legibleFirst : Reading.Legible flavor a (a.render flavor options.layout 0) :=
      a.readsBack flavor options.layout 0 first
    have legibleSecond : Reading.Legible flavor b (b.render flavor options.layout 0) :=
      b.readsBack flavor options.layout 0 second
    have texts :
        a.render flavor options.layout 0 ++ [] = b.render flavor options.layout 0 ++ [] := by
      rw [← textFirst, same, textSecond]
    exact (legibleFirst.scalar.eq_of_append legibleSecond.scalar Reading.ends_nil Reading.ends_nil
      texts).1
  · have texts : a.render flavor options.layout 0 = b.render flavor options.layout 0 := by
      rw [← Tree.render_shown flavor options.layout 0 first, same,
        Tree.render_shown flavor options.layout 0 second]
    exact String.toList_inj.mp (textFirst.trans (texts.trans textSecond.symm))

/-- A column whose name contains quotes around an operator. -/
def awkwardColumn : Scalar :=
  .column ⟨1, { table := some "item", name := "stock\" AND \"open", type := .boolean }⟩

def priceAmongNone : Scalar :=
  let price : Scalar := .column ⟨2, { name := "price", type := .double }⟩
  .inValues 3 (.call 4 "round" (.cons (.cast 5 price (.decimal (some 10) (some 2))) .nil) .double)
    .nil true

def negations : Scalar × Scalar :=
  (.unary 6 .not (.binary 7 .and awkwardColumn priceAmongNone .boolean) .boolean,
    .binary 8 .and (.unary 9 .not awkwardColumn .boolean) priceAmongNone .boolean)

theorem operational_sql_eq_iff_negations :
    (negations.1.operational = true ∧ negations.2.operational = true ∧
        negations.1.shown ≠ negations.2.shown) ∧
      ∃ x y, format Flavor.mysql.dialect {} (.scalarStatement negations.1) = .ok x ∧
        format Flavor.mysql.dialect {} (.scalarStatement negations.2) = .ok y ∧
        (x.sql = y.sql ↔ negations.1.shown = negations.2.shown) := by
  have first : negations.1.operational = true := by decide +kernel
  have second : negations.2.operational = true := by decide +kernel
  have different : negations.1.shown ≠ negations.2.shown := nofun
  exact ⟨⟨first, second, different⟩,
    operational_sql_eq_iff .mysql {} negations.1 negations.2 first second⟩

end SqlTree
