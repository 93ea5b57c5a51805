import Mathlib.Data.List.Basic
import SqlTree.Proofs.Text.Grammar
import SqlTree.Proofs.Tree.Form
import SqlTree.Text

/-!
# Texts without white space at the ends

The text of a tree never ends in white space, and starts with white space only if the name of a
function does. So of the text that a formatter leaves behind, trimming takes away the last blank and
nothing else.
-/

namespace SqlTree

/-- The text has a last character, which is no white space. -/
def EndsNonblank (text : List Char) : Prop :=
  ∃ last, text.getLast? = some last ∧ Blank.isBlank last = false

/-- The text has a first character, which is no white space. -/
def StartsNonblank (text : List Char) : Prop :=
  ∃ first, text.head? = some first ∧ Blank.isBlank first = false

/-- A text that does not end in white space and, under some assumption, does not start with any. -/
structure NonblankEnds (assumption : Prop) (text : List Char) : Prop where
  ends : EndsNonblank text
  starts : assumption → StartsNonblank text

theorem EndsNonblank.append {text : List Char} (nonblank : EndsNonblank text) (front : List Char) :
    EndsNonblank (front ++ text) := by
  obtain ⟨last, found, solid⟩ := nonblank
  exact ⟨last, by rw [List.getLast?_append, found, Option.some_or], solid⟩

theorem StartsNonblank.append {text : List Char} (nonblank : StartsNonblank text)
    (back : List Char) : StartsNonblank (text ++ back) := by
  obtain ⟨first, found, solid⟩ := nonblank
  exact ⟨first, by rw [List.head?_append, found, Option.some_or], solid⟩

theorem EndsNonblank.exists_append {text : List Char} (nonblank : EndsNonblank text) :
    ∃ front last, text = front ++ [last] ∧ last ≠ ' ' := by
  obtain ⟨last, found, solid⟩ := nonblank
  obtain ⟨front, rfl⟩ := List.getLast?_eq_some_iff.mp found
  refine ⟨front, last, rfl, ?_⟩
  rintro rfl
  exact absurd solid (by decide)

/-- Behind such a text trimming takes one blank away, and in front of it all white space. -/
theorem Blank.trim_append_of_endsNonblank {text : List Char} (ends : EndsNonblank text) :
    Blank.trim (text ++ [' ']) = text.dropWhile Blank.isBlank := by
  obtain ⟨last, found, solid⟩ := ends
  obtain ⟨front, rfl⟩ := List.getLast?_eq_some_iff.mp found
  have kept : ∀ back, (front ++ last :: back).dropWhile Blank.isBlank =
      front.dropWhile Blank.isBlank ++ last :: back := by
    intro back
    rw [List.dropWhile_append]
    split
    · next empty =>
      rw [List.dropWhile_cons_of_neg (by simp [solid]), List.isEmpty_iff.mp empty]
      rfl
    · rfl
  have blank : Blank.isBlank ' ' = true := by decide
  have spelled : front ++ [last] ++ [' '] = front ++ [last, ' '] := by simp
  have turned : [last, ' '].reverse = [' ', last] := rfl
  rw [Blank.trim, spelled, kept, kept, List.reverse_append, turned, List.cons_append,
    List.dropWhile_cons_of_pos blank, List.cons_append,
    List.dropWhile_cons_of_neg (by simp [solid])]
  simp

/-- Trimming such a text takes the blank behind it away, and nothing else. -/
theorem Blank.trim_append_blank {text : List Char} (starts : StartsNonblank text)
    (ends : EndsNonblank text) : Blank.trim (text ++ [' ']) = text := by
  obtain ⟨first, found, solid⟩ := starts
  obtain ⟨rest, rfl⟩ := List.head?_eq_some_iff.mp found
  rw [Blank.trim_append_of_endsNonblank ends, List.dropWhile_cons_of_neg (by simp [solid])]

namespace Grammar

variable {assumption : Prop} {flavor : Flavor} {layout : Layout}

/-- Whether a text neither starts nor ends with white space, as a test. -/
def hasNonblankEnds (text : List Char) : Bool :=
  text.head?.any (fun first => !Blank.isBlank first) &&
    text.getLast?.any (fun last => !Blank.isBlank last)

theorem nonblank_of_hasNonblankEnds {text : List Char} (nonblank : hasNonblankEnds text = true) :
    NonblankEnds assumption text := by
  rw [hasNonblankEnds, Bool.and_eq_true, Option.any_eq_true, Option.any_eq_true] at nonblank
  obtain ⟨⟨first, foundFirst, solidFirst⟩, ⟨last, foundLast, solidLast⟩⟩ := nonblank
  rw [Bool.not_eq_true'] at solidFirst solidLast
  exact ⟨⟨last, foundLast, solidLast⟩, fun _ => ⟨first, foundFirst, solidFirst⟩⟩

theorem nonblank_word (s : String) (nonblank : hasNonblankEnds s.toList = true) :
    NonblankEnds assumption s.toList :=
  nonblank_of_hasNonblankEnds nonblank

theorem nonblank_placeholder : NonblankEnds assumption ['?'] :=
  nonblank_of_hasNonblankEnds (by decide)

theorem nonblank_binarySymbol (op : BinaryOperator) : NonblankEnds assumption op.symbol.toList :=
  nonblank_of_hasNonblankEnds (by cases op <;> decide)

theorem nonblank_unarySymbol (op : UnaryOperator) : NonblankEnds assumption op.symbol.toList :=
  nonblank_of_hasNonblankEnds (by cases op <;> decide)

theorem nonblank_aggregateSymbol (function : Aggregate) :
    NonblankEnds assumption function.symbol.toList :=
  nonblank_of_hasNonblankEnds (by cases function <;> decide)

theorem nonblank_joinKeyword (kind : JoinKind) : NonblankEnds assumption kind.keyword.toList :=
  nonblank_of_hasNonblankEnds (by cases kind <;> decide)

theorem nonblank_append {text text' : List Char} (first : NonblankEnds assumption text)
    (second : NonblankEnds assumption text') : NonblankEnds assumption (text ++ text') :=
  ⟨second.ends.append text, fun holds => (first.starts holds).append text'⟩

def NonblankWords (assumption : Prop) (words : List (List Char)) : Prop :=
  ∀ word ∈ words, NonblankEnds assumption word

theorem NonblankWords.append {words words' : List (List Char)}
    (first : NonblankWords assumption words) (second : NonblankWords assumption words') :
    NonblankWords assumption (words ++ words') :=
  List.forall_mem_append.mpr ⟨first, second⟩

theorem NonblankWords.cons {word : List Char} {words : List (List Char)}
    (first : NonblankEnds assumption word) (rest : NonblankWords assumption words) :
    NonblankWords assumption (word :: words) :=
  List.forall_mem_cons.mpr ⟨first, rest⟩

theorem NonblankWords.nil : NonblankWords assumption [] :=
  fun _ member => absurd member List.not_mem_nil

theorem NonblankWords.single {word : List Char} (first : NonblankEnds assumption word) :
    NonblankWords assumption [word] :=
  .cons first .nil

/-- It does not matter what stands between texts that are joined. -/
theorem nonblank_intercalate {separator : List Char} {texts : List (List Char)}
    (nonempty : texts ≠ []) (each : NonblankWords assumption texts) :
    NonblankEnds assumption (separator.intercalate texts) := by
  induction texts with
  | nil => exact absurd rfl nonempty
  | cons text rest ih =>
    obtain ⟨first, others⟩ := List.forall_mem_cons.mp each
    cases rest with
    | nil =>
      rw [List.intercalate_singleton]
      exact first
    | cons next more =>
      have joined := ih (List.cons_ne_nil _ _) others
      rw [List.intercalate_cons_cons]
      exact ⟨joined.ends.append _, fun holds => by
        rw [List.append_assoc]
        exact (first.starts holds).append _⟩

theorem nonblank_joined {separator first : List Char} {rest : List (List Char)}
    (each : NonblankWords assumption (first :: rest)) :
    NonblankEnds assumption (separator.intercalate (first :: rest)) :=
  nonblank_intercalate (List.cons_ne_nil _ _) each

/-- What stands between two brackets may be anything. -/
theorem nonblank_bracketed (content : List Char) : NonblankEnds assumption (bracketed content) where
  ends := EndsNonblank.append ⟨')', rfl, by decide⟩ ('(' :: content)
  starts _ := ⟨'(', rfl, by decide⟩

theorem nonblank_nested (depth : Nat) (query : List Char) :
    NonblankEnds assumption (nested layout depth query) where
  ends := EndsNonblank.append ⟨')', rfl, by decide⟩ _
  starts _ := ⟨'(', rfl, by decide⟩

theorem nonblank_quoted (name : String) : NonblankEnds assumption (quoted flavor name) := by
  have solid : Blank.isBlank flavor.quote = false := by cases flavor <;> decide
  exact ⟨EndsNonblank.append ⟨flavor.quote, rfl, solid⟩ _, fun _ => ⟨flavor.quote, rfl, solid⟩⟩

theorem nonblank_qualified (name : Option String) {text : List Char}
    (nonblank : NonblankEnds assumption text) :
    NonblankEnds assumption (qualifier flavor name ++ text) := by
  cases name with
  | none => exact nonblank
  | some name =>
    exact ⟨nonblank.ends.append _, fun holds =>
      (((nonblank_quoted name).starts holds).append _).append _⟩

theorem nonblank_column (c : Column) : NonblankEnds assumption (column flavor c) :=
  nonblank_qualified c.table (nonblank_quoted c.name)

/-- Names are quoted, so they may start and end as they like. -/
theorem nonblank_tableName (t : Table) : NonblankEnds assumption (tableName flavor t) := by
  rw [tableName, List.append_assoc]
  exact nonblank_qualified t.catalog (nonblank_qualified t.schema (nonblank_quoted t.name))

/-- Brackets around an operand are its ends. -/
theorem nonblank_operand (node : Scalar) {text : List Char}
    (nonblank : NonblankEnds assumption text) : NonblankEnds assumption (operand node text) := by
  rw [operand]
  split
  · exact nonblank_bracketed text
  · exact nonblank

/-! ### Words that are not always there -/

theorem nonblankWords_wordIf (condition : Bool) {word : String}
    (nonblank : NonblankEnds assumption word.toList) :
    NonblankWords assumption (wordIf condition word) := by
  cases condition with
  | false => exact .nil
  | true => exact .single nonblank

theorem nonblankWords_name (name : Option String) :
    NonblankWords assumption (name.elim [] fun name => [quoted flavor name]) := by
  cases name with
  | none => exact .nil
  | some name => exact .single (nonblank_quoted name)

theorem nonblankWords_listIfAny {items : List (List Char)} (each : NonblankWords assumption items) :
    NonblankWords assumption (listIfAny items) := by
  cases items with
  | nil => exact .nil
  | cons item rest => exact .single (nonblank_joined each)

theorem nonblank_selection {columns : List (List Char)} (each : NonblankWords assumption columns) :
    NonblankEnds assumption (selection columns) := by
  cases columns with
  | nil => exact nonblank_of_hasNonblankEnds (by decide)
  | cons first rest => exact nonblank_joined each

theorem nonblankWords_optionalClause {head : String}
    (nonblank : NonblankEnds assumption head.toList) {content : Option (List Char)}
    (each : ∀ text ∈ content, NonblankEnds assumption text) :
    NonblankWords assumption (optionalClause head content) := by
  cases content with
  | none => exact .nil
  | some text =>
    exact .single (nonblank_joined (.cons nonblank (.single (each text rfl))))

theorem nonblankWords_listClause {head : String} (nonblank : NonblankEnds assumption head.toList)
    {entries : List (List Char)} (each : NonblankWords assumption entries) :
    NonblankWords assumption (listClause head entries) := by
  cases entries with
  | nil => exact .nil
  | cons entry rest =>
    exact .single (nonblank_joined (.cons nonblank (.single (nonblank_joined each))))

theorem nonblankWords_pageClause (wanted : Page) :
    NonblankWords assumption (pageClause flavor wanted) := by
  rw [pageClause]
  split
  · exact .single (nonblank_of_hasNonblankEnds (by cases flavor <;> decide))
  · exact .nil

theorem nonblankWords_insertRows (into : Table) (rows : List (List Assigned)) :
    NonblankWords assumption (insertRows flavor into rows) := by
  refine .append (.cons (nonblank_of_hasNonblankEnds (by decide)) (.cons (nonblank_tableName into)
    (.cons (nonblank_bracketed _) (.single (nonblank_of_hasNonblankEnds (by decide)))))) ?_
  refine nonblankWords_listIfAny (List.forall_mem_map.mpr ?_)
  exact fun row _ => nonblank_bracketed _

def NonblankRow (assumption : Prop) (row : List Assigned) : Prop :=
  ∀ assigned ∈ row, NonblankEnds assumption assigned.value

theorem nonblankWords_settings {row : List Assigned} (each : NonblankRow assumption row) :
    NonblankWords assumption (settings flavor row) := by
  refine nonblankWords_listIfAny (List.forall_mem_map.mpr ?_)
  intro assigned member
  have equals : NonblankEnds assumption ['='] := nonblank_of_hasNonblankEnds (by decide)
  exact nonblank_joined (.cons (nonblank_quoted _) (.cons equals (.single (each assigned member))))

theorem nonblankWords_duplicateKeyClause {updates : List Assigned}
    (each : NonblankRow assumption updates) :
    NonblankWords assumption (duplicateKeyClause flavor updates) := by
  rw [duplicateKeyClause]
  split
  · exact .nil
  · exact .append (.single (nonblank_of_hasNonblankEnds (by decide))) (nonblankWords_settings each)

theorem nonblankWords_conflictClause (conflict : List Column) {updates : List Assigned}
    (each : NonblankRow assumption updates) :
    NonblankWords assumption (conflictClause flavor conflict updates) := by
  rw [conflictClause]
  split
  · exact .nil
  · refine .append
      (.cons (nonblank_of_hasNonblankEnds (by decide)) (.single (nonblank_bracketed _))) ?_
    split
    · exact .single (nonblank_of_hasNonblankEnds (by decide))
    · exact .append (.single (nonblank_of_hasNonblankEnds (by decide)))
        (nonblankWords_settings each)

end Grammar

/-! ### Texts of trees -/

def NonblankTexts (assumption : Prop) : (c : Category) → Rendered c → Prop
  | .assignment, assigned => NonblankEnds assumption assigned.value
  | .list c, texts => ∀ text ∈ texts, NonblankTexts assumption c text
  | .option c, content => ∀ text ∈ content, NonblankTexts assumption c text
  | .scalar, text => NonblankEnds assumption text
  | .source, text => NonblankEnds assumption text
  | .query, text => NonblankEnds assumption text
  | .order, text => NonblankEnds assumption text
  | .extension, text => NonblankEnds assumption text
  | .statement, text => NonblankEnds assumption text

def Tree.calledName : {c : Category} → Tree c → List String
  | _, .call _ name _ _ => [name]
  | _, _ => []

def Tree.nameContribution : Contribution String where
  before node := node.calledName

def Tree.callNames {c : Category} (tree : Tree c) : List String :=
  tree.collect Tree.nameContribution

/-- A name that does not start with white space; it may be empty. -/
def OpensNonblank (name : String) : Prop :=
  ∀ first ∈ name.toList.head?, Blank.isBlank first = false

/-- A name that is empty leaves the start to what stands behind it. -/
theorem OpensNonblank.startsNonblank {name : String} (opens : OpensNonblank name) {text : List Char}
    (nonblank : StartsNonblank text) : StartsNonblank (name.toList ++ text) := by
  cases spelled : name.toList with
  | nil => exact nonblank
  | cons first rest => exact ⟨first, rfl, opens first (by rw [spelled]; rfl)⟩

theorem opensNonblank_iff (name : String) :
    name.toList.head?.all (fun first => !Blank.isBlank first) = true ↔ OpensNonblank name := by
  simp only [OpensNonblank, Option.all_eq_true, Bool.not_eq_true', Option.mem_def]

instance (name : String) : Decidable (OpensNonblank name) :=
  decidable_of_iff _ (opensNonblank_iff name)

namespace Slot

def callNames (s : Slot) (parts : s.Part) : List String :=
  s.collect Tree.nameContribution parts

/-- All texts of the parts of a node, at any depth. -/
def NonblankTexts (assumption : Prop) (flavor : Flavor) (layout : Layout) :
    (s : Slot) → s.Part → Prop
  | .tree c, t => ∀ depth, SqlTree.NonblankTexts assumption c (t.render flavor layout depth)
  | .pair s t, parts =>
    s.NonblankTexts assumption flavor layout parts.1 ∧
      t.NonblankTexts assumption flavor layout parts.2
  | _, _ => True

end Slot

section Trees

open Grammar

variable {assumption : Prop} (flavor : Flavor) (layout : Layout)

/-- What stands for another node has the text of that node. -/
theorem Frame.nonblankTexts_build {c : Category} {s : Slot} (frame : Frame c s) (parts : s.Part)
    (inside : s.NonblankTexts assumption flavor layout parts) (depth : Nat) :
    NonblankTexts assumption c ((frame.build parts).render flavor layout depth) := by
  cases frame with
  | column => exact nonblank_column _
  | argument => exact nonblank_placeholder
  | table =>
    exact nonblank_joined (.append (.single (nonblank_tableName _)) (nonblankWords_name _))
  | scalarExtension | sourceExtension | queryStatement | scalarStatement | sourceStatement
  | extensionStatement => exact inside depth
  | nil => exact fun _ member => absurd member List.not_mem_nil
  | cons => exact List.forall_mem_cons.mpr ⟨inside.1 depth, inside.2 depth⟩
  | absent => exact nofun
  | present =>
    intro text found
    cases found
    exact inside depth

/-- Of the texts that nothing is known about, only the name of a function stands at the start of a
scalar. -/
theorem Form.nonblank_scalar {s : Slot} (form : Form .scalar s) (id : NodeId) (parts : s.Part)
    (names : assumption → ∀ name ∈ (form.build id parts).calledName, OpensNonblank name)
    (inside : s.NonblankTexts assumption flavor layout parts) (depth : Nat) :
    NonblankEnds assumption ((form.build id parts).render flavor layout depth) := by
  have negation : ∀ negated, NonblankWords assumption (wordIf negated "NOT") :=
    fun negated => nonblankWords_wordIf negated (nonblank_word _ (by decide))
  cases form with
  | declare name =>
    refine nonblank_joined (.append (.single (inside depth)) ?_)
    cases name with
    | none => exact .nil
    | some name => exact .cons (nonblank_word "AS" (by decide)) (.single (nonblank_quoted name))
  | binary op type =>
    exact nonblank_joined (.cons (nonblank_operand _ (inside.1 depth))
      (.cons (nonblank_binarySymbol op) (.single (nonblank_operand _ (inside.2 depth)))))
  | unary op type =>
    change NonblankEnds assumption (if op.followsOperand then _ else _)
    have symbol : NonblankEnds assumption op.symbol.toList := nonblank_unarySymbol op
    have inner := nonblank_operand parts (inside depth)
    split
    · exact nonblank_joined (.cons inner (.single symbol))
    · exact nonblank_joined (.cons symbol (.single inner))
  | between negated =>
    refine nonblank_joined
      (.append (.append (.single (nonblank_operand _ (inside.1.1 depth))) (negation negated)) ?_)
    exact .cons (nonblank_word "BETWEEN" (by decide)) (.cons (nonblank_operand _ (inside.1.2 depth))
      (.cons (nonblank_word "AND" (by decide)) (.single (nonblank_operand _ (inside.2 depth)))))
  | inValues negated =>
    refine nonblank_joined
      (.append (.append (.single (nonblank_operand _ (inside.1 depth))) (negation negated)) ?_)
    exact .cons (nonblank_word "IN" (by decide)) (.single (nonblank_bracketed _))
  | inQuery negated =>
    refine nonblank_joined
      (.append (.append (.single (nonblank_operand _ (inside.1 depth))) (negation negated)) ?_)
    exact .cons (nonblank_word "IN" (by decide)) (.single (nonblank_nested depth _))
  | existsQuery negated =>
    refine nonblank_intercalate (List.append_ne_nil_of_right_ne_nil _ (List.cons_ne_nil _ _))
      (.append (negation negated) ?_)
    exact .cons (nonblank_word "EXISTS" (by decide)) (.single (nonblank_nested depth _))
  | aggregate function distinct type =>
    exact nonblank_append (nonblank_aggregateSymbol function) (nonblank_bracketed _)
  | cast type => exact nonblank_append (nonblank_word "CAST" (by decide)) (nonblank_bracketed _)
  | call name type =>
    -- The one node whose text starts with something that is not fixed.
    have arguments :
        NonblankEnds assumption (bracketed (listed (parts.render flavor layout depth))) :=
      nonblank_bracketed _
    exact ⟨arguments.ends.append name.toList, fun holds =>
      (names holds name List.mem_cons_self).startsNonblank (arguments.starts holds)⟩

theorem Form.nonblank_source {s : Slot} (form : Form .source s) (id : NodeId) (parts : s.Part)
    (inside : s.NonblankTexts assumption flavor layout parts) (depth : Nat) :
    NonblankEnds assumption ((form.build id parts).render flavor layout depth) := by
  cases form with
  | join kind =>
    refine nonblank_joined (.cons (inside.1.1 depth) (.single ?_))
    refine nonblank_joined
      (.append (.cons (nonblank_joinKeyword kind) (.single (inside.1.2 depth))) ?_)
    have condition := inside.2 depth
    cases found : parts.2.render flavor layout depth with
    | none => exact .nil
    | some test =>
      exact .cons (nonblank_word "ON" (by decide)) (.single (condition test found))
  | subquery aliasName =>
    exact nonblank_joined
      (.append (.single (nonblank_nested depth _)) (nonblankWords_name aliasName))

theorem Form.nonblank_query {s : Slot} (form : Form .query s) (id : NodeId) (parts : s.Part)
    (inside : s.NonblankTexts assumption flavor layout parts) (depth : Nat) :
    NonblankEnds assumption ((form.build id parts).render flavor layout depth) := by
  cases form with
  | select distinct page =>
    obtain ⟨⟨⟨⟨⟨columns, source⟩, condition⟩, groupBy⟩, having⟩, orderBy⟩ := inside
    refine nonblank_joined (.append (.append (.append (.append (.append
      (.append (.single ?_) (.single ?_)) ?_) ?_) ?_) ?_) (nonblankWords_pageClause page))
    · exact nonblank_joined
        (.append (.append (.single (nonblank_word "SELECT" (by decide)))
          (nonblankWords_wordIf distinct (nonblank_word "DISTINCT" (by decide))))
          (.single (nonblank_selection (columns depth))))
    · exact nonblank_joined (.cons (nonblank_word "FROM" (by decide)) (.single (source depth)))
    · exact nonblankWords_optionalClause (nonblank_word "WHERE" (by decide)) (condition depth)
    · exact nonblankWords_listClause (nonblank_word "GROUP BY" (by decide)) (groupBy depth)
    · exact nonblankWords_optionalClause (nonblank_word "HAVING" (by decide)) (having depth)
    · exact nonblankWords_listClause (nonblank_word "ORDER BY" (by decide)) (orderBy depth)
  | union all page =>
    refine nonblank_intercalate (List.cons_ne_nil _ _) (.append (.append ?_
      (nonblankWords_listClause (nonblank_word "ORDER BY" (by decide)) (inside.2 depth)))
      (nonblankWords_pageClause page))
    refine .cons (nonblank_nested depth _) (.cons ?_ (.single (nonblank_nested depth _)))
    cases all with
    | false => exact nonblank_word "UNION" (by decide)
    | true => exact nonblank_word "UNION ALL" (by decide)

theorem Form.nonblank_extension {s : Slot} (form : Form .extension s) (id : NodeId) (parts : s.Part)
    (inside : s.NonblankTexts assumption flavor layout parts) (depth : Nat) :
    NonblankEnds assumption ((form.build id parts).render flavor layout depth) := by
  cases form with
  | duplicateKeyUpsert =>
    exact nonblank_joined
      (.append (nonblankWords_insertRows _ _) (nonblankWords_duplicateKeyClause (inside.2 depth)))
  | bulkInsert => exact nonblank_joined (nonblankWords_insertRows _ _)
  | naturalJoin =>
    refine nonblank_joined (.cons (inside.1 depth) (.single ?_))
    exact nonblank_joined
      (.cons (nonblank_word "NATURAL JOIN" (by decide)) (.single (inside.2 depth)))
  | matchAgainst search modifier =>
    exact nonblank_joined
      (.cons (nonblank_word "MATCH" (by decide)) (.cons (nonblank_bracketed _)
        (.cons (nonblank_word "AGAINST" (by decide)) (.single (nonblank_bracketed _)))))
  | ilike =>
    exact nonblank_joined (.cons (nonblank_operand _ (inside.1 depth))
      (.cons (nonblank_word "ILIKE" (by decide)) (.single (nonblank_operand _ (inside.2 depth)))))
  | conflictUpsert =>
    exact nonblank_joined
      (.append (nonblankWords_insertRows _ _) (nonblankWords_conflictClause _ (inside.2 depth)))
  | foreign node => exact nonblank_bracketed _

theorem Form.nonblank_statement {s : Slot} (form : Form .statement s) (id : NodeId) (parts : s.Part)
    (inside : s.NonblankTexts assumption flavor layout parts) (depth : Nat) :
    NonblankEnds assumption ((form.build id parts).render flavor layout depth) := by
  cases form with
  | insert => exact nonblank_joined (nonblankWords_insertRows _ _)
  | insertFromQuery =>
    refine nonblank_joined (.cons ?_ (.single (inside.2 depth)))
    exact nonblank_joined
      (.cons (nonblank_word "INSERT INTO" (by decide)) (.cons (nonblank_tableName _)
        (.single (nonblank_bracketed _))))
  | update =>
    refine nonblank_joined (.append (.single ?_)
      (nonblankWords_optionalClause (nonblank_word "WHERE" (by decide)) (inside.2 depth)))
    refine nonblank_intercalate (List.cons_ne_nil _ _)
      (.append ?_ (nonblankWords_settings (inside.1.2 depth)))
    exact .cons (nonblank_word "UPDATE" (by decide)) (.cons (nonblank_tableName _)
      (.single (nonblank_word "SET" (by decide))))
  | delete =>
    refine nonblank_joined (.append (.single ?_)
      (nonblankWords_optionalClause (nonblank_word "WHERE" (by decide)) (inside.2 depth)))
    exact nonblank_joined
      (.cons (nonblank_word "DELETE FROM" (by decide)) (.single (nonblank_tableName _)))

theorem Form.nonblankTexts_build {c : Category} {s : Slot} (form : Form c s) (id : NodeId)
    (parts : s.Part)
    (names : assumption → ∀ name ∈ (form.build id parts).calledName, OpensNonblank name)
    (inside : s.NonblankTexts assumption flavor layout parts) (depth : Nat) :
    NonblankTexts assumption c ((form.build id parts).render flavor layout depth) := by
  cases c with
  | scalar => exact form.nonblank_scalar flavor layout id parts names inside depth
  | source => exact form.nonblank_source flavor layout id parts inside depth
  | query => exact form.nonblank_query flavor layout id parts inside depth
  | extension => exact form.nonblank_extension flavor layout id parts inside depth
  | statement => exact form.nonblank_statement flavor layout id parts inside depth
  | assignment =>
    cases form
    exact inside.2 depth
  | order =>
    cases form with
    | order descending =>
      exact nonblank_joined (.append (.single (inside depth))
        (nonblankWords_wordIf descending (nonblank_word "DESC" (by decide))))
  | list => cases form
  | option => cases form

/-- The names of functions have to be given: they may start with white space. -/
theorem Slot.nonblankTexts (s : Slot) (parts : s.Part)
    (names : assumption → ∀ name ∈ s.callNames parts, OpensNonblank name) :
    s.NonblankTexts assumption flavor layout parts := by
  induction s, parts using Slot.induction with
  | unit | table | column | argument | noColumns | moreColumns => trivial
  | pair a b first second ihFirst ihSecond =>
    exact ⟨ihFirst fun holds name member => names holds name (List.mem_append_left _ member),
      ihSecond fun holds name member => names holds name (List.mem_append_right _ member)⟩
  | frame frame parts ih =>
    have inside := ih fun holds name member => names holds name (frame.mem_collect_build member)
    exact fun depth => frame.nonblankTexts_build flavor layout parts inside depth
  | node form id parts ih =>
    have inside := ih fun holds name member =>
      names holds name (form.mem_collect_build (.inr member))
    have own := fun holds name member => names holds name (form.mem_collect_build (.inl member))
    exact fun depth => form.nonblankTexts_build flavor layout id parts own inside depth

/-- The induction over the tree. -/
theorem Tree.nonblankTexts_render {c : Category} (tree : Tree c) (depth : Nat)
    (names : assumption → ∀ name ∈ tree.callNames, OpensNonblank name) :
    NonblankTexts assumption c (tree.render flavor layout depth) :=
  Slot.nonblankTexts flavor layout (.tree c) tree names depth

end Trees

end SqlTree
