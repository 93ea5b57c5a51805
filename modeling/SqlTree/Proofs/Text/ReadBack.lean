import SqlTree.Proofs.Text.Grammar
import SqlTree.Proofs.Text.Reading

/-!
# Operator expressions are read back

The reader undoes the grammar on operator expressions: from the text of such an expression, with
anything behind it that does not go on with it, `Reading.scalar` returns the expression as its text
shows it and leaves the rest alone.

An operand may be followed by anything that could not belong to a quoted name; a whole expression
must not be followed by a link either.
-/

namespace SqlTree

/-! ## Operator expressions -/

/-- Whether a tree is an operator expression, or a list of them: columns and arguments under
operators, `BETWEEN`, `IN` over values, aggregates, casts to standard types, and calls of functions
with plain names that are not those of aggregates. -/
def Tree.operational : {c : Category} → Tree c → Bool
  | _, .column _ => true
  | _, .argument _ => true
  | _, .binary _ _ left right _ => left.operational && right.operational
  | _, .unary _ _ operand _ => operand.operational
  | _, .between _ expr lower upper _ =>
    expr.operational && lower.operational && upper.operational
  | _, .inValues _ left values _ => left.operational && values.operational
  | _, .aggregate _ _ operand _ _ => operand.operational
  | _, .call _ name arguments _ =>
    Word.isPlain name.toList && (Reading.aggregate name.toList).isNone && arguments.operational
  | _, .cast _ _ (.custom _) => false
  | _, .cast _ expr _ => expr.operational
  | _, .nil => true
  | _, .cons head tail => head.operational && tail.operational
  | _, .absent => true
  | _, .present content => content.operational
  | _, _ => false

/-- An operational cast is one to a standard type. -/
theorem Tree.cast_operational {id : NodeId} {expr : Scalar} {type : SqlType}
    (operational : (Tree.cast id expr type).operational = true) :
    (∀ name, type ≠ .custom name) ∧ expr.operational = true := by
  cases type with
  | custom name => cases operational
  | _ => exact ⟨nofun, operational⟩

namespace Reading

variable {flavor : Flavor} {text rest : List Char}

/-! ## What may follow -/

/-- Whether a text can follow an operand: it goes on with no quoted name. -/
def Detached (flavor : Flavor) (rest : List Char) : Prop :=
  rest.head? ≠ some flavor.quote ∧ rest.head? ≠ some '.'

/-- Whether a text can follow a whole expression. -/
structure Ends (flavor : Flavor) (rest : List Char) : Prop where
  detached : Detached flavor rest
  unlinked : link rest = none

theorem detached_nil : Detached flavor [] :=
  ⟨nofun, nofun⟩

theorem detached_cons {c : Char} (other : c ∉ ['"', '\x60', '.']) :
    Detached flavor (c :: rest) := by
  simp only [List.mem_cons, List.not_mem_nil, or_false, not_or] at other
  cases flavor <;> simp [Detached, Flavor.quote, other]

theorem detached_blank : Detached flavor (' ' :: rest) :=
  detached_cons (by decide)

theorem ends_nil : Ends flavor [] :=
  ⟨detached_nil, rfl⟩

theorem ends_closing : Ends flavor (')' :: rest) :=
  ⟨detached_cons (by decide), rfl⟩

theorem ends_comma : Ends flavor (',' :: rest) :=
  ⟨detached_cons (by decide), rfl⟩

theorem ends_as : Ends flavor (" AS ".toList ++ rest) :=
  ⟨detached_blank, rfl⟩

/-! ## How texts start -/

/-- How the text of an operand starts: with a bracket behind a word that may be empty, with a quoted
name or with a placeholder. -/
inductive Begins (flavor : Flavor) : List Char → Prop
  | bracket {word : List Char} (parts : word.all Word.isPart = true) (rest : List Char) :
    Begins flavor (word ++ '(' :: rest)
  | quote (rest : List Char) : Begins flavor (flavor.quote :: rest)
  | placeholder (rest : List Char) : Begins flavor ('?' :: rest)

/-- How the text of an expression starts: as an operand, or with an operator in front of one. -/
inductive Opens (flavor : Flavor) : List Char → Prop
  | operand {text : List Char} (begins : Begins flavor text) : Opens flavor text
  | operator {op : UnaryOperator} (leads : op.followsOperand = false) (rest : List Char) :
    Opens flavor (op.symbol.toList ++ ' ' :: rest)

theorem leading_cases {op : UnaryOperator} (leads : op.followsOperand = false) :
    op = .minus ∨ op = .plus ∨ op = .not := by
  cases op <;> simp_all [UnaryOperator.followsOperand]

theorem isPart_quote : Word.isPart flavor.quote = false := by
  cases flavor <;> rfl

/-- Behind the first word of an operand stands no blank. -/
theorem Begins.split (begins : Begins flavor text) :
    ∃ word c rest, Word.split text = (word, c :: rest) ∧ c ≠ ' ' := by
  cases begins with
  | bracket parts rest => exact ⟨_, _, rest, Word.split_append parts rfl rest, by decide⟩
  | quote rest =>
    refine ⟨[], _, rest, Word.split_cons isPart_quote rest, ?_⟩
    cases flavor <;> decide
  | placeholder rest => exact ⟨[], _, rest, Word.split_cons rfl rest, by decide⟩

/-- No operand is taken for a keyword. -/
theorem Begins.keyword_eq_none (begins : Begins flavor text) (word : String) :
    keyword word text = none := by
  obtain ⟨found, c, rest, split, notBlank⟩ := begins.split
  rw [keyword, split]
  split
  · next eq => exact absurd (List.cons.inj (Prod.mk.inj eq).2).1 notBlank
  · rfl

/-- Neither an operand nor the text behind an operator starts with a character that ends a list or
stands for all rows. -/
theorem Begins.head_ne (begins : Begins flavor text) {c : Char} (other : Word.isPart c = false)
    (notBracket : c ≠ '(') (notQuote : c ≠ flavor.quote) (notPlaceholder : c ≠ '?')
    (rest : List Char) : text ≠ c :: rest := by
  rintro rfl
  generalize whole : c :: rest = text at begins
  cases begins with
  | @bracket word parts rest =>
    cases word with
    | nil => exact notBracket (List.cons.inj whole).1
    | cons d word =>
      obtain ⟨rfl, -⟩ := List.cons.inj whole
      simp [other] at parts
  | quote rest => exact notQuote (List.cons.inj whole).1
  | placeholder rest => exact notPlaceholder (List.cons.inj whole).1

/-- No operand is taken for an operator in front of one. -/
theorem Begins.leadingOperator_eq_none (begins : Begins flavor text) :
    leadingOperator text = none := by
  unfold leadingOperator
  split
  · next rest =>
    exact absurd rfl (begins.head_ne rfl (by decide) (by cases flavor <;> decide) (by decide) _)
  · next rest =>
    exact absurd rfl (begins.head_ne rfl (by decide) (by cases flavor <;> decide) (by decide) _)
  · rw [begins.keyword_eq_none, Option.map_none]

theorem Begins.append (begins : Begins flavor text) (more : List Char) :
    Begins flavor (text ++ more) := by
  cases begins with
  | bracket parts rest =>
    rw [List.append_assoc, List.cons_append]
    exact .bracket parts _
  | quote rest => exact .quote _
  | placeholder rest => exact .placeholder _

theorem Opens.append (opens : Opens flavor text) (more : List Char) :
    Opens flavor (text ++ more) := by
  cases opens with
  | operand begins => exact .operand (begins.append more)
  | operator leads rest =>
    rw [List.append_assoc, List.cons_append]
    exact .operator leads _

theorem Opens.ne_closing (opens : Opens flavor text) (rest : List Char) : text ≠ ')' :: rest := by
  cases opens with
  | operand begins =>
    exact begins.head_ne rfl (by decide) (by cases flavor <;> decide) (by decide) rest
  | operator leads more => obtain rfl | rfl | rfl := leading_cases leads <;> exact nofun

theorem Opens.ne_star (opens : Opens flavor text) (rest : List Char) : text ≠ '*' :: rest := by
  cases opens with
  | operand begins =>
    exact begins.head_ne rfl (by decide) (by cases flavor <;> decide) (by decide) rest
  | operator leads more => obtain rfl | rfl | rfl := leading_cases leads <;> exact nofun

/-- No expression is taken for the word `DISTINCT`. -/
theorem Opens.distinct_eq_none (opens : Opens flavor text) : keyword "DISTINCT" text = none := by
  cases opens with
  | operand begins => exact begins.keyword_eq_none _
  | operator leads more => obtain rfl | rfl | rfl := leading_cases leads <;> rfl

/-! ## Words that stand alone -/

theorem leadingOperator_append {op : UnaryOperator} (leads : op.followsOperand = false)
    (rest : List Char) : leadingOperator (op.symbol.toList ++ ' ' :: rest) = some (op, rest) := by
  obtain rfl | rfl | rfl := leading_cases leads <;> rfl

theorem link_follows {op : UnaryOperator} (follows : op.followsOperand = true) (rest : List Char) :
    link ((Link.follows op).spelling ++ rest) = some (.follows op, rest) := by
  cases op with
  | isNull | isNotNull => rfl
  | minus | plus | not => cases follows

/-- No binary operator is the beginning of another one that would be tried before. -/
theorem link_joins (op : BinaryOperator) (rest : List Char) :
    link ((Link.joins op).spelling ++ rest) = some (.joins op, rest) := by
  cases op <;> rfl

theorem link_between (negated : Bool) (rest : List Char) :
    link ((Link.between negated).spelling ++ rest) = some (.between negated, rest) := by
  cases negated <;> rfl

theorem link_among (negated : Bool) (rest : List Char) :
    link ((Link.among negated).spelling ++ rest) = some (.among negated, rest) := by
  cases negated <;> rfl

/-- The spellings of aggregates are different. -/
theorem aggregate_symbol (function : Aggregate) :
    aggregate function.symbol.toList = some function := by
  cases function <;> rfl

/-! ## Names of columns and types -/

/-- A column is read back with its qualifier. -/
theorem column_append (c : Column) (detached : Detached flavor rest) :
    column flavor.quote (Grammar.column flavor c ++ rest) = some (c.shown, rest) := by
  obtain ⟨notQuote, notDot⟩ := detached
  have last : Quoted.read flavor.quote (Grammar.quoted flavor c.name ++ rest) =
      some (c.name.toList, rest) := Quoted.read_enclose _ notQuote
  rw [column, Grammar.column, Grammar.qualifier]
  cases qualified : c.table with
  | none =>
    rw [Option.elim_none, List.nil_append, last, Option.bind_eq_bind, Option.bind_some]
    -- A dot would make the name the qualifier of another one.
    dsimp only
    split
    · exact absurd rfl notDot
    · simp [Column.shown, qualified]
  | some table =>
    have dotApart : ('.' :: (Grammar.quoted flavor c.name ++ rest)).head? ≠ some flavor.quote := by
      cases flavor <;> simp [Flavor.quote]
    have first : Quoted.read flavor.quote (Grammar.quoted flavor table ++ '.' ::
        (Grammar.quoted flavor c.name ++ rest)) = some (table.toList, _) :=
      Quoted.read_enclose _ dotApart
    simp [first, last, Column.shown, qualified]

theorem typeName_word {word : List Char} (parts : word.all Word.isPart = true) (rest : List Char) :
    typeName (word ++ ')' :: rest) = some (word, rest) := by
  simp only [typeName, Word.split_append parts (show Word.isPart ')' = false from rfl)]

theorem typeName_sized {word size : List Char} (parts : word.all Word.isPart = true)
    (closed : ')' ∉ size) (rest : List Char) :
    typeName ((word ++ '(' :: size ++ [')']) ++ ')' :: rest) =
      some (word ++ '(' :: size ++ [')'], rest) := by
  have inside : ∀ c ∈ size, decide (c ≠ ')') = true := by
    intro c member
    exact decide_eq_true fun same => closed (same ▸ member)
  have behind : ((size ++ ')' :: ')' :: rest).dropWhile (· ≠ ')')) = ')' :: ')' :: rest := by
    rw [List.dropWhile_append_of_pos inside, List.dropWhile_cons_of_neg (by simp)]
  have front : ((size ++ ')' :: ')' :: rest).takeWhile (· ≠ ')')) = size := by
    rw [List.takeWhile_append_of_pos inside, List.takeWhile_cons_of_neg (by simp),
      List.append_nil]
  have whole : (word ++ '(' :: size ++ [')']) ++ ')' :: rest =
      word ++ '(' :: (size ++ ')' :: ')' :: rest) := by simp
  rw [typeName, whole, Word.split_append parts rfl]
  simp only [behind, front]

/-- The name of a standard type is read back. -/
theorem typeName_append {type : SqlType} (standard : ∀ name, type ≠ .custom name)
    (rest : List Char) :
    typeName (type.name.toList ++ ')' :: rest) = some (type.name.toList, rest) := by
  obtain ⟨word, plain, unsized | ⟨size, parts, sized⟩⟩ := SqlType.spelling standard
  · rw [unsized]
    exact typeName_word (Word.isPlain.parts plain) rest
  · have closed : ')' ∉ size := fun member =>
      absurd (List.all_eq_true.mp parts _ member) (by decide)
    rw [sized]
    exact typeName_sized (Word.isPlain.parts plain) closed rest

/-! ## Reading with a budget -/

/-- A reader takes a text for a value, whatever follows that may follow, if its budget is large
enough. -/
def Reads {α : Type} (read : Nat → List Char → Option (α × List Char)) (follow : List Char → Prop)
    (text : List Char) (value : α) : Prop :=
  ∃ least, ∀ budget, least ≤ budget → ∀ rest, follow rest →
    read budget (text ++ rest) = some (value, rest)

/-- Texts that are read back differ where the values do, whatever stands behind them. -/
theorem Reads.eq_of_append {α : Type} {read : Nat → List Char → Option (α × List Char)}
    {follow : List Char → Prop} {text text' rest rest' : List Char} {value value' : α}
    (reads : Reads read follow text value) (reads' : Reads read follow text' value')
    (follows : follow rest) (follows' : follow rest') (same : text ++ rest = text' ++ rest') :
    value = value' ∧ rest = rest' := by
  obtain ⟨least, reads⟩ := reads
  obtain ⟨least', reads'⟩ := reads'
  have first := reads _ (Nat.le_max_left least least') rest follows
  have second := reads' _ (Nat.le_max_right least least') rest' follows'
  rw [same, second] at first
  obtain ⟨values, rests⟩ := Prod.mk.inj (Option.some.inj first)
  exact ⟨values.symm, rests.symm⟩

abbrev ReadsOperand (flavor : Flavor) : List Char → Scalar → Prop :=
  Reads (operand flavor.quote) (Detached flavor)

abbrev ReadsScalar (flavor : Flavor) : List Char → Scalar → Prop :=
  Reads (scalar flavor.quote) (Ends flavor)

/-- What makes an expression out of its first operand. -/
abbrev ReadsOn (flavor : Flavor) (first : Scalar) : List Char → Scalar → Prop :=
  Reads (continued flavor.quote · first) (Ends flavor)

abbrev ReadsItems (flavor : Flavor) : List Char → Tree (.list .scalar) → Prop :=
  Reads (items flavor.quote) (·.head? = some ')')

/-- Every reader spends one of its budget before it looks at the text. -/
theorem Reads.of_succ {α : Type} {read : Nat → List Char → Option (α × List Char)}
    {follow : List Char → Prop} {value : α} (least : Nat)
    (reads : ∀ budget, least ≤ budget → ∀ rest, follow rest →
      read (budget + 1) (text ++ rest) = some (value, rest)) : Reads read follow text value := by
  refine ⟨least + 1, fun budget enough => ?_⟩
  obtain ⟨budget, rfl⟩ := Nat.exists_eq_add_of_le' (Nat.le_trans (Nat.le_add_left 1 least) enough)
  exact reads budget (Nat.le_of_succ_le_succ enough)

theorem strip_append (expected text : List Char) :
    strip expected (expected ++ text) = some text := by
  induction expected with
  | nil => rfl
  | cons c expected ih => simp [strip, ih]

/-! ## What follows the first operand -/

section Continued

variable {first : Scalar} {second lower upper : List Char} {b lo up : Scalar}

theorem readsOn_nil : ReadsOn flavor first [] first := by
  refine .of_succ 0 fun budget _ rest ends => ?_
  simp [ends.unlinked]

theorem readsOn_follows {op : UnaryOperator} (follows : op.followsOperand = true) :
    ReadsOn flavor first (Link.follows op).spelling (.unary 0 op first .boolean) := by
  refine .of_succ 0 fun budget _ rest _ => ?_
  simp [link_follows follows]

theorem ReadsOperand.joins (reads : ReadsOperand flavor second b) (op : BinaryOperator) :
    ReadsOn flavor first ((Link.joins op).spelling ++ second) (.binary 0 op first b .boolean) := by
  obtain ⟨least, reads⟩ := reads
  refine .of_succ least fun budget enough rest ends => ?_
  simp [link_joins, reads budget enough rest ends.detached]

theorem ReadsOperand.between (readsLower : ReadsOperand flavor lower lo)
    (readsUpper : ReadsOperand flavor upper up) (negated : Bool) :
    ReadsOn flavor first ((Link.between negated).spelling ++ (lower ++ (" AND ".toList ++ upper)))
      (.between 0 first lo up negated) := by
  obtain ⟨leastLower, readsLower⟩ := readsLower
  obtain ⟨leastUpper, readsUpper⟩ := readsUpper
  refine .of_succ (max leastLower leastUpper) fun budget enough rest ends => ?_
  have lowerRead := readsLower budget (by omega) (" AND ".toList ++ (upper ++ rest)) detached_blank
  have upperRead := readsUpper budget (by omega) rest ends.detached
  simp only [List.append_assoc, continued, link_between, lowerRead, strip_append, upperRead,
    Option.bind_eq_bind, Option.bind_some, pure]

theorem ReadsItems.among {values : List Char} {bs : Tree (.list .scalar)}
    (reads : ReadsItems flavor values bs) (negated : Bool) :
    ReadsOn flavor first ((Link.among negated).spelling ++ (values ++ [')']))
      (.inValues 0 first bs negated) := by
  obtain ⟨least, reads⟩ := reads
  refine .of_succ least fun budget enough rest ends => ?_
  have valuesRead := reads budget enough (')' :: rest) rfl
  simp only [List.append_assoc, List.singleton_append, continued, link_among, valuesRead, closing,
    Option.bind_eq_bind, Option.bind_some, pure]

end Continued

/-! ## Whole expressions -/

/-- An expression is its first operand with what follows. -/
theorem ReadsOperand.continue {more : List Char} {a value : Scalar}
    (begins : Begins flavor text) (reads : ReadsOperand flavor text a)
    (readsMore : ReadsOn flavor a more value) (apart : more = [] ∨ more.head? = some ' ') :
    ReadsScalar flavor (text ++ more) value := by
  obtain ⟨least, reads⟩ := reads
  obtain ⟨leastMore, readsMore⟩ := readsMore
  refine .of_succ (max least leastMore) fun budget enough rest ends => ?_
  have detached : Detached flavor (more ++ rest) := by
    obtain rfl | blank := apart
    · exact ends.detached
    · obtain ⟨tail, rfl⟩ := List.head?_eq_some_iff.mp blank
      exact detached_blank
  have firstRead := reads budget (by omega) (more ++ rest) detached
  have moreRead := readsMore budget (by omega) rest ends
  have noOperator := (begins.append (more ++ rest)).leadingOperator_eq_none
  simp only [List.append_assoc, scalar, noOperator, firstRead, moreRead, Option.bind_eq_bind,
    Option.bind_some]

/-- An operand is an expression, if nothing follows that would go on. -/
theorem ReadsOperand.scalar {a : Scalar} (begins : Begins flavor text)
    (reads : ReadsOperand flavor text a) : ReadsScalar flavor text a := by
  have whole := ReadsOperand.continue begins reads readsOn_nil (.inl rfl)
  rwa [List.append_nil] at whole

theorem ReadsOperand.behind {a : Scalar} (reads : ReadsOperand flavor text a) {op : UnaryOperator}
    (leads : op.followsOperand = false) :
    ReadsScalar flavor (op.symbol.toList ++ ' ' :: text) (.unary 0 op a .boolean) := by
  obtain ⟨least, reads⟩ := reads
  refine .of_succ least fun budget enough rest ends => ?_
  have inner := reads budget enough rest ends.detached
  simp only [List.append_assoc, List.cons_append, Reading.scalar, leadingOperator_append leads,
    inner, Option.bind_eq_bind, Option.bind_some, pure]

/-! ## Operands -/

theorem readsOperand_placeholder :
    ReadsOperand flavor ['?'] (.argument ⟨0, Argument.shown⟩) :=
  .of_succ 0 fun _ _ _ _ => rfl

theorem column_eq_cons (flavor : Flavor) (c : Column) :
    ∃ rest, Grammar.column flavor c = flavor.quote :: rest := by
  rw [Grammar.column, Grammar.qualifier]
  cases c.table with
  | none => exact ⟨_, rfl⟩
  | some table => exact ⟨_, rfl⟩

theorem begins_column (c : Column) : Begins flavor (Grammar.column flavor c) := by
  obtain ⟨rest, eq⟩ := column_eq_cons flavor c
  rw [eq]
  exact .quote rest

theorem readsOperand_column (c : Column) :
    ReadsOperand flavor (Grammar.column flavor c) (.column ⟨0, c.shown⟩) := by
  refine .of_succ 0 fun budget _ rest detached => ?_
  have read := column_append c detached
  obtain ⟨tail, eq⟩ := column_eq_cons flavor c
  have split : Word.split (Grammar.column flavor c ++ rest) =
      ([], flavor.quote :: (tail ++ rest)) := by
    rw [eq]
    exact Word.split_cons isPart_quote _
  cases flavor <;>
    · simp only [Flavor.quote] at read split
      simp [Flavor.quote, split, read]

/-- An expression in brackets is an operand. -/
theorem ReadsScalar.bracketed {a : Scalar} (reads : ReadsScalar flavor text a) :
    ReadsOperand flavor (Grammar.bracketed text) a := by
  obtain ⟨least, reads⟩ := reads
  refine .of_succ least fun budget enough rest _ => ?_
  have inner := reads budget enough (')' :: rest) ends_closing
  have whole : Grammar.bracketed text ++ rest = '(' :: (text ++ ')' :: rest) := by
    simp [Grammar.bracketed]
  have split := Word.split_cons (show Word.isPart '(' = false from rfl) (text ++ ')' :: rest)
  simp only [whole, operand, split, inner, closing, Option.bind_eq_bind, Option.bind_some, pure]

/-- A bracket behind a word opens an aggregate or a call. -/
theorem operand_word {word : List Char} (parts : word.all Word.isPart = true) (nonempty : word ≠ [])
    (budget : Nat) (rest : List Char) :
    operand flavor.quote (budget + 1) (word ++ '(' :: rest) =
      match aggregate word with
      | some function => aggregated flavor.quote budget function rest
      | none => called flavor.quote budget word rest := by
  obtain ⟨c, word, rfl⟩ := List.exists_cons_of_ne_nil nonempty
  have split := Word.split_append parts (show Word.isPart '(' = false from rfl) rest
  unfold operand
  rw [split]
  rfl

section Aggregates

variable (function : Aggregate) (distinct : Bool)

theorem aggregated_all (budget : Nat) (rest : List Char) :
    aggregated flavor.quote (budget + 1) function
        (Grammar.phrase (Grammar.wordIf distinct "DISTINCT" ++ [['*']]) ++ ')' :: rest) =
      some (.aggregate 0 function .absent distinct .boolean, rest) := by
  cases distinct <;> rfl

theorem aggregated_inner (opens : Opens flavor text) {budget : Nat} {a : Scalar}
    (read : scalar flavor.quote budget (text ++ ')' :: rest) = some (a, ')' :: rest)) :
    aggregated flavor.quote (budget + 1) function
        (Grammar.phrase (Grammar.wordIf distinct "DISTINCT" ++ [text]) ++ ')' :: rest) =
      some (.aggregate 0 function (.present a) distinct .boolean, rest) := by
  have opens := opens.append (')' :: rest)
  cases distinct with
  | false =>
    have alone : Grammar.phrase (Grammar.wordIf false "DISTINCT" ++ [text]) = text := by
      simp [Grammar.phrase, Grammar.wordIf]
    rw [alone, aggregated, opens.distinct_eq_none]
    simp only
    split
    · next eq => exact absurd eq (opens.ne_star _)
    · simp [read, closing]
  | true =>
    have behind : Grammar.phrase (Grammar.wordIf true "DISTINCT" ++ [text]) =
        "DISTINCT".toList ++ ' ' :: text := by
      simp [Grammar.phrase, Grammar.wordIf, Grammar.intercalate_cons_eq]
    have found : keyword "DISTINCT" ("DISTINCT".toList ++ ' ' :: (text ++ ')' :: rest)) =
        some (text ++ ')' :: rest) := rfl
    rw [behind, List.append_assoc, List.cons_append, aggregated, found]
    simp only
    split
    · next eq => exact absurd eq (opens.ne_star _)
    · simp [read, closing]

end Aggregates

/-! ## Lists, calls and casts -/

theorem readsItems_nil : ReadsItems flavor [] .nil := by
  refine .of_succ 0 fun budget _ rest closes => ?_
  obtain ⟨tail, rfl⟩ := List.head?_eq_some_iff.mp closes
  simp [items]

/-- An expression alone makes a list of one, unless a comma follows. -/
theorem items_single (opens : Opens flavor text) {budget : Nat} {a : Scalar}
    (read : scalar flavor.quote budget (text ++ rest) = some (a, rest))
    (last : rest.head? ≠ some ',') :
    items flavor.quote (budget + 1) (text ++ rest) = some (.cons a .nil, rest) := by
  rw [items]
  · rw [read, Option.bind_eq_bind, Option.bind_some]
    dsimp only
    split
    · exact absurd rfl last
    · rfl
  · exact (opens.append rest).ne_closing

theorem items_cons (opens : Opens flavor text) {budget : Nat} {a : Scalar}
    {bs : Tree (.list .scalar)}
    {more : List Char}
    (read : scalar flavor.quote budget (text ++ ',' :: ' ' :: more) = some (a, ',' :: ' ' :: more))
    (readMore : items flavor.quote budget more = some (bs, rest)) :
    items flavor.quote (budget + 1) (text ++ ',' :: ' ' :: more) = some (.cons a bs, rest) := by
  rw [items]
  · simp [read, readMore]
  · exact (opens.append _).ne_closing

/-- A plain name that is not that of an aggregate is read as a function. -/
theorem ReadsItems.call {arguments : Tree (.list .scalar)}
    (reads : ReadsItems flavor text arguments)
    {name : String} (plain : Word.isPlain name.toList = true)
    (other : aggregate name.toList = none) :
    ReadsOperand flavor (name.toList ++ Grammar.bracketed text)
      (.call 0 name arguments .boolean) := by
  obtain ⟨least, reads⟩ := reads
  refine .of_succ (least + 1) fun budget enough rest _ => ?_
  obtain ⟨budget, rfl⟩ := Nat.exists_eq_add_of_le' (Nat.le_trans (Nat.le_add_left 1 least) enough)
  have argumentsRead := reads budget (by omega) (')' :: rest) rfl
  have whole : name.toList ++ Grammar.bracketed text ++ rest =
      name.toList ++ '(' :: (text ++ ')' :: rest) := by simp [Grammar.bracketed]
  rw [whole, operand_word (Word.isPlain.parts plain) (Word.isPlain.ne_nil plain), other]
  simp [called, argumentsRead]

/-- The type of a cast ends at its closing bracket. -/
theorem ReadsScalar.cast {a : Scalar} (opens : Opens flavor text)
    (reads : ReadsScalar flavor text a)
    {type : SqlType} (standard : ∀ name, type ≠ .custom name) :
    ReadsOperand flavor
      ("CAST".toList ++ Grammar.bracketed (Grammar.phrase [text, "AS".toList, type.name.toList]))
      (.cast 0 a (.custom type.name)) := by
  obtain ⟨least, reads⟩ := reads
  refine .of_succ (least + 2) fun budget enough rest _ => ?_
  obtain ⟨budget, rfl⟩ := Nat.exists_eq_add_of_le' (Nat.le_trans (Nat.le_add_left 2 least) enough)
  have innerRead :=
    reads budget (by omega) (" AS ".toList ++ (type.name.toList ++ ')' :: rest)) ends_as
  have listRead := items_single opens innerRead nofun
  have typeRead := typeName_append standard rest
  have whole : "CAST".toList
        ++ Grammar.bracketed (Grammar.phrase [text, "AS".toList, type.name.toList]) ++ rest =
      "CAST".toList ++ '(' :: (text ++ (" AS ".toList ++ (type.name.toList ++ ')' :: rest))) := by
    simp [Grammar.bracketed, Grammar.phrase, Grammar.intercalate_cons_eq]
  have other : aggregate "CAST".toList = none := rfl
  rw [whole, operand_word rfl (by decide), other]
  have spelled : " AS ".toList = [' ', 'A', 'S', ' '] := rfl
  simp only [spelled, List.cons_append, List.nil_append] at listRead ⊢
  have only : single (.cons a .nil) = some a := rfl
  simp [called, listRead, only, strip, typeRead]

/-! ## Trees -/

/-- The text of a scalar can be read back, as an operand and as a whole expression. -/
structure Legible (flavor : Flavor) (node : Scalar) (text : List Char) : Prop where
  begins : Begins flavor (Grammar.operand node text)
  opens : Opens flavor text
  operand : ReadsOperand flavor (Grammar.operand node text) node.shown
  scalar : ReadsScalar flavor text node.shown

/-- What needs no brackets is read as an operand in the first place. -/
theorem Legible.of_operand {node : Scalar} (unbracketed : node.needsBrackets = false)
    (begins : Begins flavor text) (reads : ReadsOperand flavor text node.shown) :
    Legible flavor node text := by
  have same : Grammar.operand node text = text := by simp [Grammar.operand, unbracketed]
  refine ⟨?_, .operand begins, ?_, ReadsOperand.scalar begins reads⟩
  · rwa [same]
  · rwa [same]

/-- What needs brackets is read as an operand between them. -/
theorem Legible.of_scalar {node : Scalar} (bracketed : node.needsBrackets = true)
    (opens : Opens flavor text) (reads : ReadsScalar flavor text node.shown) :
    Legible flavor node text := by
  have same : Grammar.operand node text = Grammar.bracketed text := by
    simp [Grammar.operand, bracketed]
  refine ⟨?_, opens, ?_, reads⟩
  · rw [same]
    have empty : ([] : List Char).all Word.isPart = true := rfl
    exact .bracket empty _
  · rw [same]
    exact ReadsScalar.bracketed reads

/-- An expression that starts with an operand and a link. -/
theorem Legible.extend {first node : Scalar} (legible : Legible flavor first text)
    (bracketed : node.needsBrackets = true) {more : List Char}
    (reads : ReadsOn flavor first.shown more node.shown) (apart : more.head? = some ' ') :
    Legible flavor node (Grammar.operand first text ++ more) :=
  .of_scalar bracketed (.operand (legible.begins.append more))
    (ReadsOperand.continue legible.begins legible.operand reads (.inr apart))

section Constructors

variable {a b c : Scalar} {first second third : List Char}

/-- Both operands are read back, since the operator between them has blanks around it. -/
theorem Legible.binary (left : Legible flavor a first) (right : Legible flavor b second)
    (id : NodeId) (op : BinaryOperator) (type : SqlType) :
    Legible flavor (.binary id op a b type)
      (Grammar.phrase [Grammar.operand a first, op.symbol.toList, Grammar.operand b second]) := by
  have spelled :
      Grammar.phrase [Grammar.operand a first, op.symbol.toList, Grammar.operand b second] =
      Grammar.operand a first ++ ((Link.joins op).spelling ++ Grammar.operand b second) := by
    simp [Grammar.phrase, Grammar.intercalate_cons_eq, Link.spelling]
  rw [spelled]
  exact left.extend rfl (ReadsOperand.joins right.operand op) rfl

/-- An operator in front of its operand, or behind it. -/
theorem Legible.unary (inner : Legible flavor a first) (id : NodeId) (op : UnaryOperator)
    (type : SqlType) :
    Legible flavor (.unary id op a type)
      (if op.followsOperand then Grammar.phrase [Grammar.operand a first, op.symbol.toList]
        else Grammar.phrase [op.symbol.toList, Grammar.operand a first]) := by
  cases position : op.followsOperand with
  | true =>
    have spelled : Grammar.phrase [Grammar.operand a first, op.symbol.toList] =
        Grammar.operand a first ++ (Link.follows op).spelling := by
      simp [Grammar.phrase, Grammar.intercalate_cons_eq, Link.spelling]
    rw [if_pos rfl, spelled]
    exact inner.extend rfl (readsOn_follows position) rfl
  | false =>
    have spelled : Grammar.phrase [op.symbol.toList, Grammar.operand a first] =
        op.symbol.toList ++ ' ' :: Grammar.operand a first := by
      simp [Grammar.phrase, Grammar.intercalate_cons_eq]
    rw [if_neg Bool.false_ne_true, spelled]
    exact .of_scalar rfl (.operator position _) (ReadsOperand.behind inner.operand position)

theorem Legible.between (expr : Legible flavor a first) (lower : Legible flavor b second)
    (upper : Legible flavor c third) (id : NodeId) (negated : Bool) :
    Legible flavor (.between id a b c negated)
      (Grammar.phrase ([Grammar.operand a first] ++ Grammar.wordIf negated "NOT"
        ++ ["BETWEEN".toList, Grammar.operand b second, "AND".toList,
          Grammar.operand c third])) := by
  have spelled : Grammar.phrase ([Grammar.operand a first] ++ Grammar.wordIf negated "NOT"
        ++ ["BETWEEN".toList, Grammar.operand b second, "AND".toList, Grammar.operand c third]) =
      Grammar.operand a first ++ ((Link.between negated).spelling
        ++ (Grammar.operand b second ++ (" AND ".toList ++ Grammar.operand c third))) := by
    cases negated <;>
      simp [Grammar.phrase, Grammar.intercalate_cons_eq, Grammar.wordIf, Link.spelling]
  rw [spelled]
  refine expr.extend rfl (ReadsOperand.between lower.operand upper.operand negated) ?_
  cases negated <;> rfl

theorem Legible.inValues (left : Legible flavor a first) {values : Tree (.list .scalar)}
    (reads : ReadsItems flavor second values.shown) (id : NodeId) (negated : Bool) :
    Legible flavor (.inValues id a values negated)
      (Grammar.phrase ([Grammar.operand a first] ++ Grammar.wordIf negated "NOT"
        ++ ["IN".toList, Grammar.bracketed second])) := by
  have spelled : Grammar.phrase ([Grammar.operand a first] ++ Grammar.wordIf negated "NOT"
        ++ ["IN".toList, Grammar.bracketed second]) =
      Grammar.operand a first ++ ((Link.among negated).spelling ++ (second ++ [')'])) := by
    cases negated <;>
      simp [Grammar.phrase, Grammar.intercalate_cons_eq, Grammar.wordIf, Grammar.bracketed,
        Link.spelling]
  rw [spelled]
  refine left.extend rfl (ReadsItems.among reads negated) ?_
  cases negated <;> rfl

theorem begins_word {word : List Char} (parts : word.all Word.isPart = true) (content : List Char) :
    Begins flavor (word ++ Grammar.bracketed content) :=
  .bracket parts _

theorem symbol_parts (function : Aggregate) :
    function.symbol.toList.all Word.isPart = true ∧ function.symbol.toList ≠ [] := by
  cases function <;> exact ⟨rfl, by decide⟩

/-- A star is no expression, so it cannot be mistaken for one. -/
theorem legible_aggregate_all (id : NodeId) (function : Aggregate) (distinct : Bool)
    (type : SqlType) :
    Legible flavor (.aggregate id function .absent distinct type)
      (function.symbol.toList ++ Grammar.bracketed
        (Grammar.phrase (Grammar.wordIf distinct "DISTINCT" ++ [['*']]))) := by
  obtain ⟨parts, nonempty⟩ := symbol_parts function
  refine .of_operand rfl (begins_word parts _) (.of_succ 1 fun budget enough rest _ => ?_)
  obtain ⟨budget, rfl⟩ := Nat.exists_eq_add_of_le' enough
  rw [List.append_assoc, Grammar.bracketed, List.append_assoc, List.cons_append,
    operand_word parts nonempty, aggregate_symbol]
  exact aggregated_all function distinct budget rest

theorem Legible.aggregate (inner : Legible flavor a first) (id : NodeId) (function : Aggregate)
    (distinct : Bool) (type : SqlType) :
    Legible flavor (.aggregate id function (.present a) distinct type)
      (function.symbol.toList ++ Grammar.bracketed
        (Grammar.phrase (Grammar.wordIf distinct "DISTINCT" ++ [first]))) := by
  obtain ⟨parts, nonempty⟩ := symbol_parts function
  obtain ⟨least, reads⟩ := inner.scalar
  refine .of_operand rfl (begins_word parts _) (.of_succ (least + 1) fun budget enough rest _ => ?_)
  obtain ⟨budget, rfl⟩ := Nat.exists_eq_add_of_le' (Nat.le_trans (Nat.le_add_left 1 least) enough)
  have innerRead := reads budget (by omega) (')' :: rest) ends_closing
  have read := aggregated_inner function distinct inner.opens innerRead
  rw [List.append_assoc, Grammar.bracketed, List.append_assoc, List.cons_append,
    operand_word parts nonempty, aggregate_symbol]
  exact read

/-- A list is read item by item, up to the closing bracket. -/
theorem Legible.cons (head : Legible flavor a first) {tail : Tree (.list .scalar)}
    {texts : List (List Char)} (alone : tail = .nil ↔ texts = [])
    (reads : ReadsItems flavor (Grammar.listed texts) tail.shown) :
    ReadsItems flavor (Grammar.listed (first :: texts)) (Tree.cons a tail).shown := by
  obtain ⟨leastHead, readsHead⟩ := head.scalar
  obtain ⟨least, reads⟩ := reads
  refine .of_succ (max leastHead least) fun budget enough rest closes => ?_
  obtain ⟨behind, rfl⟩ := List.head?_eq_some_iff.mp closes
  cases texts with
  | nil =>
    obtain rfl := alone.mpr rfl
    have headRead := readsHead budget (by omega) (')' :: behind) ends_closing
    rw [Grammar.listed, List.intercalate_singleton]
    exact items_single head.opens headRead nofun
  | cons text texts =>
    have headRead := readsHead budget (by omega)
      (',' :: ' ' :: (Grammar.listed (text :: texts) ++ ')' :: behind)) ends_comma
    have tailRead := reads budget (by omega) (')' :: behind) rfl
    have spelled : Grammar.listed (first :: text :: texts) ++ ')' :: behind =
        first ++ ',' :: ' ' :: (Grammar.listed (text :: texts) ++ ')' :: behind) := by
      simp [Grammar.listed, List.intercalate_cons_cons]
    rw [spelled]
    exact items_cons head.opens headRead tailRead

end Constructors

variable (flavor) (layout : Layout) (depth : Nat)

/-- What is read back of a tree: a scalar by itself, a list in front of a closing bracket, and an
optional scalar if it is there. -/
def ReadsBack : {c : Category} → Tree c → Prop
  | .scalar, node => Legible flavor node (node.render flavor layout depth)
  | .list .scalar, values =>
    ReadsItems flavor (Grammar.listed (values.render flavor layout depth)) values.shown
  | .option .scalar, .absent => True
  | .option .scalar, .present node => Legible flavor node (node.render flavor layout depth)
  | _, _ => True

end Reading

open Reading in
/-- Every operator expression is read back from its text. -/
theorem Tree.readsBack (flavor : Flavor) (layout : Layout) (depth : Nat) {c : Category}
    (tree : Tree c) (operational : tree.operational = true) :
    ReadsBack flavor layout depth tree := by
  induction tree with
  | column node => exact .of_operand rfl (begins_column _) (readsOperand_column _)
  | argument node => exact .of_operand rfl (.placeholder []) readsOperand_placeholder
  | binary id op left right type ihLeft ihRight =>
    obtain ⟨left, right⟩ := Bool.and_eq_true_iff.mp operational
    exact Legible.binary (ihLeft left) (ihRight right) id op type
  | unary id op inner type ih => exact Legible.unary (ih operational) id op type
  | between id expr lower upper negated ihExpr ihLower ihUpper =>
    obtain ⟨bounds, upper⟩ := Bool.and_eq_true_iff.mp operational
    obtain ⟨expr, lower⟩ := Bool.and_eq_true_iff.mp bounds
    exact Legible.between (ihExpr expr) (ihLower lower) (ihUpper upper) id negated
  | inValues id left values negated ihLeft ihValues =>
    obtain ⟨left, values⟩ := Bool.and_eq_true_iff.mp operational
    exact Legible.inValues (ihLeft left) (ihValues values) id negated
  | aggregate id function inner distinct type ih =>
    cases inner with
    | absent => exact legible_aggregate_all id function distinct type
    | present inner => exact Legible.aggregate (ih operational) id function distinct type
  | call id name arguments type ih =>
    obtain ⟨named, arguments⟩ := Bool.and_eq_true_iff.mp operational
    obtain ⟨plain, other⟩ := Bool.and_eq_true_iff.mp named
    exact .of_operand rfl (begins_word (Word.isPlain.parts plain) _)
      (ReadsItems.call (ih arguments) plain (Option.isNone_iff_eq_none.mp other))
  | cast id expr type ih =>
    obtain ⟨standard, inner⟩ := Tree.cast_operational operational
    have legible : Legible _ _ _ := ih inner
    exact .of_operand rfl (begins_word rfl _)
      (ReadsScalar.cast legible.opens legible.scalar standard)
  | @nil c => cases c with
    | scalar => exact readsItems_nil
    | _ => trivial
  | @cons c head tail ihHead ihTail => cases c with
    | scalar =>
      obtain ⟨headOk, tailOk⟩ := Bool.and_eq_true_iff.mp operational
      refine Legible.cons (ihHead headOk) ?_ (ihTail tailOk)
      cases tail with
      | nil => exact ⟨fun _ => rfl, fun _ => rfl⟩
      | cons => exact ⟨nofun, nofun⟩
    | _ => trivial
  | @absent c => cases c <;> trivial
  | @present c content ih => cases c with
    | scalar => exact ih operational
    | _ => trivial
  | _ => cases operational

end SqlTree
