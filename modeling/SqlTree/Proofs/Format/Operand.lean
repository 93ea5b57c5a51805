import SqlTree.Proofs.Format.Rendering
import SqlTree.Proofs.Format.Success
import SqlTree.Proofs.Text.Brackets

/-!
# Operands that hold together

An operand stands next to the operator of its parent, so its text should be one primary: a column, a
placeholder, or one bracketed group, alone or behind the name of a function. This is so for almost
all scalars. The exceptions are those that are written without brackets although their text is not
one primary: a declared column, with its name behind `AS` or with a compound expression and no name,
and a negated test for existence.
-/

namespace SqlTree

open Brackets

/-- A text that nothing next to it can tear apart. -/
inductive Primary (flavor : Flavor) : List Char → Prop
  | column (c : Column) : Primary flavor (Grammar.column flavor c)
  | placeholder : Primary flavor ['?']
  | group {content : List Char} (closed : Closed flavor.quote content) :
    Primary flavor (Grammar.bracketed content)
  /-- A group behind the name of a function or an aggregate, or behind `CAST`. -/
  | named {word content : List Char} (plain : Word.isPlain word = true)
    (closed : Closed flavor.quote content) : Primary flavor (word ++ Grammar.bracketed content)
  | existence {content : List Char} (closed : Closed flavor.quote content) :
    Primary flavor ("EXISTS ".toList ++ Grammar.bracketed content)

/-- Whether a scalar that is written without brackets as an operand falls apart all the same. -/
def Tree.loose : {c : Category} → Tree c → Bool
  | _, .declare _ _ (some _) => true
  | _, .declare _ expr none => expr.needsBrackets || expr.loose
  | _, .existsQuery _ _ negated => negated
  | _, _ => false

variable {flavor : Flavor} {text : List Char}

/-! ## What primaries show -/

theorem Word.plain_of_isPlain {word : List Char} (plain : isPlain word = true) :
    Grammar.plain word = true :=
  Grammar.plain_of_all (isPlain.parts plain) rfl

/-- Of a column nothing is left outside quotes, but for the dot behind its qualifier. -/
theorem Grammar.outside_column (flavor : Flavor) (c : Column) :
    outside flavor.quote (column flavor c) = [] ∨
      outside flavor.quote (column flavor c) = ['.'] := by
  have last : outside flavor.quote (quoted flavor c.name) = [] := outside_enclose _
  rw [column, qualifier]
  cases c.table with
  | none => exact .inl last
  | some table =>
    right
    have first : outside flavor.quote (quoted flavor table) = [] := outside_enclose _
    have dot : outside flavor.quote ['.'] = ['.'] := outside_plain flavor (by decide)
    have closedDot : Closed flavor.quote ['.'] := fun _ => walk_plain flavor (by decide) _
    have closedTable : Closed flavor.quote (quoted flavor table) := closed_enclose _
    rw [Option.elim_some, outside_append (closedTable.append closedDot),
      outside_append closedTable, first, dot, last]
    rfl

/-- Next to its groups and names a primary shows no blank, or the one behind `EXISTS`. -/
theorem Primary.outside_cases (primary : Primary flavor text) :
    ' ' ∉ outside flavor.quote text ∨ outside flavor.quote text = "EXISTS ".toList := by
  cases primary with
  | column c =>
    left
    rcases Grammar.outside_column flavor c with shown | shown <;> rw [shown] <;> decide
  | placeholder =>
    left
    rw [outside_plain flavor (by decide)]
    decide
  | group closed =>
    left
    rw [outside_bracketed flavor closed]
    exact List.not_mem_nil
  | @named word content plain closed =>
    left
    have simple := Word.plain_of_isPlain plain
    rw [outside_append (fun _ => walk_plain flavor simple _), outside_plain flavor simple,
      outside_bracketed flavor closed, List.append_nil]
    intro blank
    exact absurd (List.all_eq_true.mp (Word.isPlain.parts plain) _ blank) (by decide)
  | existence closed =>
    right
    have simple : Grammar.plain "EXISTS ".toList = true := by decide
    rw [outside_append (fun _ => walk_plain flavor simple _), outside_plain flavor simple,
      outside_bracketed flavor closed, List.append_nil]

/-- A word between two blanks, behind a closed text, is not part of a primary. -/
theorem not_primary_between {first middle : List Char} (closed : Closed flavor.quote first)
    (simple : Grammar.plain middle = true) (rest : List Char) :
    ¬ Primary flavor (first ++ ' ' :: middle ++ ' ' :: rest) := by
  intro primary
  have blank : Closed flavor.quote [' '] := fun _ => walk_plain flavor (by decide) _
  have word : Closed flavor.quote middle := fun _ => walk_plain flavor simple _
  have spelled : first ++ ' ' :: middle ++ ' ' :: rest =
      first ++ ([' '] ++ (middle ++ ([' '] ++ rest))) := by simp
  have shown : outside flavor.quote (first ++ ' ' :: middle ++ ' ' :: rest) =
      outside flavor.quote first ++ ' ' :: (middle ++ ' ' :: outside flavor.quote rest) := by
    have space : outside flavor.quote [' '] = [' '] := outside_plain flavor (by decide)
    rw [spelled, outside_append closed, outside_append blank, outside_append word,
      outside_append blank, outside_plain flavor simple, space]
    rfl
  rcases primary.outside_cases with none | existence
  · rw [shown] at none
    simp at none
  · -- There are two blanks here, and only one behind `EXISTS`.
    have blanks := congrArg (List.count ' ') (shown.symm.trans existence)
    simp only [List.count_append, List.count_cons_self] at blanks
    have one : List.count ' ' "EXISTS ".toList = 1 := by decide
    omega

/-- Three words, the second of which is a plain one, are no primary. -/
theorem not_primary_phrase {first middle : List Char} (closed : Closed flavor.quote first)
    (simple : Grammar.plain middle = true) (next : List Char) (rest : List (List Char)) :
    ¬ Primary flavor (Grammar.phrase (first :: middle :: next :: rest)) := by
  have spelled : Grammar.phrase (first :: middle :: next :: rest) =
      first ++ ' ' :: middle ++ ' ' :: Grammar.phrase (next :: rest) := by
    simp [Grammar.phrase, List.intercalate_cons_cons]
  rw [spelled]
  exact not_primary_between closed simple _

/-- An operator behind its operand is not part of a primary: there are two words to it. -/
theorem not_primary_before {first : List Char} (closed : Closed flavor.quote first)
    {op : UnaryOperator} (follows : op.followsOperand = true) :
    ¬ Primary flavor (Grammar.phrase [first, op.symbol.toList]) := by
  obtain ⟨last, spelled⟩ : ∃ last, op.symbol.toList = "IS".toList ++ ' ' :: last := by
    cases op with
    | isNull | isNotNull => exact ⟨_, rfl⟩
    | minus | plus | not => cases follows
  have whole : Grammar.phrase [first, op.symbol.toList] =
      first ++ ' ' :: "IS".toList ++ ' ' :: last := by
    rw [spelled]
    simp [Grammar.phrase, List.intercalate_cons_cons]
  rw [whole]
  exact not_primary_between closed (by decide) last

/-- An operator in front of its operand is not part of a primary. -/
theorem not_primary_behind {op : UnaryOperator} (leads : op.followsOperand = false)
    (text : List Char) : ¬ Primary flavor (Grammar.phrase [op.symbol.toList, text]) := by
  intro primary
  have simple : Grammar.plain (op.symbol.toList ++ [' ']) = true := by cases op <;> decide
  have spelled : Grammar.phrase [op.symbol.toList, text] = op.symbol.toList ++ [' '] ++ text := by
    simp [Grammar.phrase, List.intercalate_cons_cons]
  have shown : outside flavor.quote (Grammar.phrase [op.symbol.toList, text]) =
      op.symbol.toList ++ ' ' :: outside flavor.quote text := by
    rw [spelled, outside_append (fun _ => walk_plain flavor simple _), outside_plain flavor simple,
      List.append_assoc]
    rfl
  rcases primary.outside_cases with none | existence
  · rw [shown] at none
    simp at none
  · have start := shown.symm.trans existence
    cases op with
    | isNull | isNotNull => cases leads
    | minus | plus | not => cases (List.cons.inj start).1

/-! ## Scalars -/

section Scalars

variable (flavor) (options : FormatOptions)

/-- The text of a scalar is one primary exactly if it is not loose and needs no brackets. -/
def PrimaryExactly (depth : Nat) : {c : Category} → Tree c → Prop
  | .scalar, e =>
    Primary flavor (e.render flavor options.layout depth) ↔ (e.needsBrackets || e.loose) = false
  | _, _ => True

/-- The texts in the parts of a node are closed if the names without quotes are plain words. -/
theorem Form.closed_parts {c : Category} {s : Slot} (form : Form c s) (id : NodeId)
    (parts : s.Part)
    (names : ∀ name ∈ (form.build id parts).bareNames, Word.isPlain name.toList = true) :
    s.TextsAll (Closed flavor.quote) flavor options.layout parts := by
  refine (s.alike_self Likeness.equal_reflexive parts).texts
    (inherited_closed flavor options).parallel.graded fun name member => ?_
  have plain := names name (form.mem_collect_build (.inr member))
  exact fun _ => walk_plain flavor (Word.plain_of_isPlain plain) _

/-- The induction over the tree; only scalars say something. -/
theorem Tree.primary_render_iff (depth : Nat) {c : Category} (tree : Tree c)
    (base : tree.extensionNodes = [])
    (names : ∀ name ∈ tree.bareNames, Word.isPlain name.toList = true) :
    PrimaryExactly flavor options depth tree := by
  have inherited := inherited_closed flavor options
  have parallel := inherited.parallel
  have apart {e : Scalar} (shows : (e.needsBrackets || e.loose) = true)
      (torn : ¬ Primary flavor (e.render flavor options.layout depth)) :
      PrimaryExactly flavor options depth e :=
    ⟨fun primary => absurd primary torn, fun holds => absurd (shows.symm.trans holds) nofun⟩
  have together {e : Scalar} (holds : (e.needsBrackets || e.loose) = false)
      (primary : Primary flavor (e.render flavor options.layout depth)) :
      PrimaryExactly flavor options depth e := ⟨fun _ => holds, fun _ => primary⟩
  induction tree with
  | column node => exact together rfl (.column node.value)
  | argument => exact together rfl .placeholder
  | declare id expr name ih =>
    have inside := (Form.declare name).closed_parts flavor options id expr names
    cases name with
    | some name => exact apart rfl (not_primary_phrase (inside depth) (by decide) _ _)
    | none =>
      -- Without a name the text is that of the expression inside.
      have same : (Tree.declare id expr none).render flavor options.layout depth =
          expr.render flavor options.layout depth := by
        change Grammar.phrase [_] = _
        exact List.intercalate_singleton
      have inner : Primary flavor (expr.render flavor options.layout depth) ↔
          (expr.needsBrackets || expr.loose) = false :=
        ih ((List.append_nil _).symm.trans base)
          fun name member => names name ((Form.declare none).mem_collect_build (.inr member))
      change Primary flavor _ ↔ (expr.needsBrackets || expr.loose) = false
      rw [same]
      exact inner
  | binary id op left right type =>
    have inside := (Form.binary op type).closed_parts flavor options id (left, right) names
    exact apart rfl (not_primary_phrase (inherited.operand left (inside.1 depth))
      (by cases op <;> decide) _ _)
  | unary id op inner type =>
    have inside := (Form.unary op type).closed_parts flavor options id inner names
    have first := inherited.operand inner (inside depth)
    refine apart rfl ?_
    change ¬ Primary flavor (if op.followsOperand then _ else _)
    split
    · next follows => exact not_primary_before first follows
    · next leads => exact not_primary_behind (Bool.eq_false_iff.mpr leads) _
  | between id expr lower upper negated =>
    have inside :=
      (Form.between negated).closed_parts flavor options id ((expr, lower), upper) names
    have first := inherited.operand expr (inside.1.1 depth)
    cases negated with
    | true => exact apart rfl (not_primary_phrase first (by decide) _ _)
    | false => exact apart rfl (not_primary_phrase first (by decide) _ _)
  | inValues id left values negated =>
    have inside := (Form.inValues negated).closed_parts flavor options id (left, values) names
    have first := inherited.operand left (inside.1 depth)
    cases negated with
    | true => exact apart rfl (not_primary_phrase first (by decide) _ _)
    | false => exact apart rfl (not_primary_phrase first (by decide) _ _)
  | inQuery id left query negated =>
    have inside := (Form.inQuery negated).closed_parts flavor options id (left, query) names
    have first := inherited.operand left (inside.1 depth)
    cases negated with
    | true => exact apart rfl (not_primary_phrase first (by decide) _ _)
    | false => exact apart rfl (not_primary_phrase first (by decide) _ _)
  | existsQuery id query negated =>
    have inside := (Form.existsQuery negated).closed_parts flavor options id query names
    cases negated with
    | true =>
      have negation := parallel.word "NOT" (by decide)
      exact apart rfl (not_primary_phrase negation (by decide) _ _)
    | false =>
      have spelled : Grammar.phrase ["EXISTS".toList,
            Grammar.nested options.layout depth (query.render flavor options.layout (depth + 1))] =
          "EXISTS ".toList ++ Grammar.bracketed (options.layout.edge (depth + 1)
            ++ query.render flavor options.layout (depth + 1) ++ options.layout.edge depth) := by
        rw [Grammar.nested_eq_bracketed]
        simp [Grammar.phrase, List.intercalate_cons_cons]
      refine together rfl ?_
      change Primary flavor (Grammar.phrase ["EXISTS".toList, _])
      rw [spelled]
      exact .existence (inherited.nestedContent depth (inside (depth + 1)))
  | aggregate id function inner distinct type =>
    have inside :=
      (Form.aggregate function distinct type).closed_parts flavor options id inner names
    exact together rfl
      (.named (by cases function <;> decide) (parallel.aggregated distinct (inside depth)))
  | call id name arguments type =>
    have inside := (Form.call name type).closed_parts flavor options id arguments names
    have plain := names name ((Form.call name type).mem_collect_build (.inl List.mem_cons_self))
    exact together rfl (.named plain (parallel.listed (inside depth)))
  | cast id expr type =>
    have inside := (Form.cast type).closed_parts flavor options id expr names
    refine together rfl (.named (by decide) (inherited.converted (inside depth) type ?_))
    rintro name rfl
    have plain := names name
      ((Form.cast (.custom name)).mem_collect_build (.inl List.mem_cons_self))
    exact fun _ => walk_plain flavor (Word.plain_of_isPlain plain) _
  | scalarExtension node =>
    have inside : node.extensionNodes = [] := (List.append_nil _).symm.trans base
    exact absurd inside (extensionNodes_ne_nil node)
  | _ => trivial

/-- As an operand a scalar is one primary exactly if it is not loose: brackets hold together what
needs them. -/
theorem Tree.primary_operand_iff (depth : Nat) {e : Scalar} (base : e.extensionNodes = [])
    (names : ∀ name ∈ e.bareNames, Word.isPlain name.toList = true) :
    Primary flavor (Grammar.operand e (e.render flavor options.layout depth)) ↔
      e.loose = false := by
  have exactly : Primary flavor (e.render flavor options.layout depth) ↔
      (e.needsBrackets || e.loose) = false :=
    e.primary_render_iff flavor options depth base names
  rw [Grammar.operand]
  cases bracketed : e.needsBrackets with
  | false =>
    rw [bracketed, Bool.false_or] at exactly
    exact exactly
  | true =>
    have closed : Closed flavor.quote (e.render flavor options.layout depth) :=
      (e.alike_self Likeness.equal_reflexive).render (inherited_closed flavor options).parallel
        (fun name member _ => walk_plain flavor (Word.plain_of_isPlain (names name member)) _) depth
    have nonblank : e.loose = false := by
      cases e with
      | declare | existsQuery => cases bracketed
      | _ => rfl
    exact ⟨fun _ => nonblank, fun _ => .group closed⟩

end Scalars

/-- Any formatter can write any scalar without extension nodes as an operand. The text that it adds
is one primary and a blank behind it, unless the scalar is loose: declared under a name, declared
without one around something that needs brackets or is loose itself, or a negated test for
existence. -/
theorem operand_primary_iff (flavor : Flavor) (options : FormatOptions) (e : Scalar)
    (f : Formatter) (base : e.extensionNodes = [])
    (names : ∀ name ∈ e.bareNames, Word.isPlain name.toList = true) :
    ∃ g text, f.perform flavor.dialect options
        (Script.run flavor.dialect (Script.operand e e.script)) = (.ok (), g) ∧
      g.buffer.toList = f.buffer.toList ++ (text ++ [' ']) ∧
      (Primary flavor text ↔ e.loose = false) := by
  have success := e.operand_succeeds flavor options base f
  have written : Script.Writes flavor options f.depth e.script
      (e.render flavor options.layout f.depth) := e.writes_script flavor options f.depth
  rcases ran : f.perform flavor.dialect options
    (Script.run flavor.dialect (Script.operand e e.script)) with ⟨result, g⟩
  rw [ran] at success
  obtain rfl : result = .ok () := success
  rw [perform_script] at ran
  obtain ⟨appended, -⟩ := written.operand e f.buffer.toList f g rfl rfl ran
  exact ⟨g, _, rfl, appended, e.primary_operand_iff flavor options f.depth base names⟩

def convertedTitle : Scalar :=
  .cast 3
    (.call 2 "lower" (.cons (.column ⟨1, { name := "title (x\"", type := .text }⟩) .nil) .text)
    (.custom "citext")

theorem operand_primary_iff_convertedTitle :
    (convertedTitle.extensionNodes = [] ∧
        ∀ name ∈ convertedTitle.bareNames, Word.isPlain name.toList = true) ∧
      ∃ g text, Formatter.perform {} Flavor.postgresql.dialect (.pretty 4)
          (Script.run Flavor.postgresql.dialect
            (Script.operand convertedTitle convertedTitle.script)) = (.ok (), g) ∧
        g.buffer.toList = [] ++ (text ++ [' ']) ∧
        (Primary .postgresql text ↔ convertedTitle.loose = false) := by
  have base : convertedTitle.extensionNodes = [] := rfl
  have names : ∀ name ∈ convertedTitle.bareNames, Word.isPlain name.toList = true := by
    have bare : convertedTitle.bareNames = ["citext", "lower"] := rfl
    rw [bare]
    decide +kernel
  exact ⟨⟨base, names⟩,
    operand_primary_iff .postgresql (.pretty 4) convertedTitle {} base names⟩

def emptiness : Scalar :=
  .existsQuery 3 (.select 2 .nil (.table ⟨1, { name := "t" }⟩) .absent .nil .absent false .nil {})
    true

def declaredSum : Scalar :=
  let column (name : String) : Scalar := .column ⟨1, { name, type := .int }⟩
  .declare 3 (.binary 2 .plus (column "a") (column "b") .int) none

/-- What is added to the text when an operand is written in the generic dialect. -/
def operandText (e : Scalar) : List Char :=
  (Formatter.perform {} Flavor.generic.dialect {}
    (Script.run Flavor.generic.dialect (Script.operand e e.script))).2.buffer.toList

/-- Two operands that fall apart: a negation and a sum stand there without brackets. -/
theorem operands_fall_apart :
    (emptiness.extensionNodes = [] ∧ emptiness.bareNames = [] ∧
        operandText emptiness = "NOT EXISTS (SELECT * FROM \"t\") ".toList ∧
        ¬ Primary .generic "NOT EXISTS (SELECT * FROM \"t\")".toList) ∧
      (declaredSum.extensionNodes = [] ∧ declaredSum.bareNames = [] ∧
        operandText declaredSum = "\"a\" + \"b\" ".toList ∧
        ¬ Primary .generic "\"a\" + \"b\"".toList) := by
  refine ⟨⟨rfl, rfl, by decide +kernel, ?_⟩, rfl, rfl, by decide +kernel, ?_⟩
  · have negation : Closed Flavor.generic.quote "NOT".toList :=
      fun _ => walk_plain .generic (by decide) _
    exact not_primary_between negation (show Grammar.plain "EXISTS".toList = true by decide)
      "(SELECT * FROM \"t\")".toList
  · have summand : Closed Flavor.generic.quote "\"a\"".toList := closed_enclose ['a']
    exact not_primary_between summand (show Grammar.plain "+".toList = true by decide)
      "\"b\"".toList

end SqlTree
