import SqlTree.Proofs.Text.NonblankEnds
import SqlTree.Proofs.Text.Word
import SqlTree.Proofs.Tree.Likeness

/-!
# Texts of trees that are alike

The text of a tree is put together from fixed words, quoted names, brackets, separators and the
white space of its layout. A relation between texts that holds for the pieces, and survives these
ways of putting texts together, holds between the texts of any two trees that are alike. The two
texts may be in different flavors and layouts.

`Alike.render` is the statement for whole trees; what holds of one text, or of one tree in two
layouts, are special cases of it.
-/

namespace SqlTree

namespace Grammar

def plain (text : List Char) : Bool :=
  text.all (· ∉ ['"', '\x60', '(', ')'])

/-- A text of characters none of which is a quote or a bracket. -/
theorem plain_of_all {text : List Char} {part : Char → Bool} (parts : text.all part = true)
    (other : ['"', '\x60', '(', ')'].any part = false) : plain text = true :=
  Word.free_of_all parts other

/-- What stands between two texts of the same line. -/
inductive Separator : List Char → Prop
  | blank : Separator [' ']
  | comma : Separator [',', ' ']
  | dot : Separator ['.']

theorem Separator.plain {separator : List Char} (between : Separator separator) :
    plain separator = true := by
  cases between <;> decide

theorem Separator.ne_nil {separator : List Char} (between : Separator separator) :
    separator ≠ [] := by
  cases between <;> exact List.cons_ne_nil _ _

theorem plain_gap (options : FormatOptions) (depth : Nat) :
    plain (options.layout.gap depth) = true := by
  rw [FormatOptions.layout]
  split
  · simp [plain, Layout.lines]
  · rfl

theorem plain_edge (options : FormatOptions) (depth : Nat) :
    plain (options.layout.edge depth) = true := by
  rw [FormatOptions.layout]
  split
  · simp [plain, Layout.lines]
  · rfl

theorem gap_ne_nil (options : FormatOptions) (depth : Nat) : options.layout.gap depth ≠ [] := by
  rw [FormatOptions.layout]
  split
  · exact List.cons_ne_nil _ _
  · exact List.cons_ne_nil _ _

theorem plain_page (flavor : Flavor) : plain (page flavor) = true := by
  cases flavor <;> decide

/-- A relation between texts that survives the ways in which the grammar puts texts together. Texts
that are `Bare` stand for themselves: fixed words do, and so may names without quotes. -/
structure Parallel (like : Likeness) (flavor flavor' : Flavor) (layout layout' : Layout)
    (Bare : List Char → Prop) (R : List Char → List Char → Prop) : Prop where
  plain {text : List Char} : plain text = true → Bare text
  bare {text : List Char} : Bare text → R text text
  joined {separator first first' rest rest' : List Char} :
    Separator separator → R first first' → R rest rest' →
      R (first ++ separator ++ rest) (first' ++ separator ++ rest')
  gap {first first' rest rest' : List Char} (depth : Nat) :
    R first first' → R rest rest' →
      R (first ++ layout.gap depth ++ rest) (first' ++ layout'.gap depth ++ rest')
  bracketed {content content' : List Char} :
    R content content' → R (bracketed content) (bracketed content')
  nested {query query' : List Char} (depth : Nat) :
    R query query' → R (nested layout depth query) (nested layout' depth query')
  called {name content content' : List Char} :
    Bare name → R content content' →
      R (name ++ Grammar.bracketed content) (name ++ Grammar.bracketed content')
  quoted {name name' : String} :
    like.name name name' → R (quoted flavor name) (quoted flavor' name')
  page {page page' : Page} :
    like.page page page' → List.Forall₂ R (pageClause flavor page) (pageClause flavor' page')
  kind {node node' : Foreign} : like.foreign node node' → node.kind = node'.kind

namespace Parallel

variable {like : Likeness} {flavor flavor' : Flavor} {layout layout' : Layout}
  {Bare : List Char → Prop} {R : List Char → List Char → Prop}
variable (parallel : Parallel like flavor flavor' layout layout' Bare R) {text text' : List Char}

include parallel

theorem word (s : String) (simple : Grammar.plain s.toList = true) : R s.toList s.toList :=
  parallel.bare (parallel.plain simple)

/-- The size of a type stands in brackets; a name of one's own is another matter. -/
theorem typeName (type : SqlType) (bare : ∀ name, type = .custom name → Bare name.toList) :
    R type.name.toList type.name.toList := by
  by_cases custom : ∃ name, type = .custom name
  · obtain ⟨name, rfl⟩ := custom
    exact parallel.bare (bare name rfl)
  · obtain ⟨word, plain, unsized | ⟨size, parts, sized⟩⟩ :=
      SqlType.spelling fun name same => custom ⟨name, same⟩
    · rw [unsized]
      exact parallel.bare (parallel.plain (plain_of_all (Word.isPlain.parts plain) rfl))
    · rw [sized, List.append_assoc]
      exact parallel.called (parallel.plain (plain_of_all (Word.isPlain.parts plain) rfl))
        (parallel.bare (parallel.plain (plain_of_all parts rfl)))

/-- What stands in the brackets of a cast. -/
theorem converted (inside : R text text') (type : SqlType)
    (bare : ∀ name, type = .custom name → Bare name.toList) :
    R (phrase [text, "AS".toList, type.name.toList])
      (phrase [text', "AS".toList, type.name.toList]) := by
  have target := parallel.joined .blank (parallel.word "AS" (by decide))
    (parallel.typeName type bare)
  have whole := parallel.joined .blank inside target
  simpa only [phrase, List.intercalate_cons_cons, List.intercalate_singleton] using whole

end Parallel

/-! ### Relations with a depth -/

/-- Whether a text is a word, or some words on one line: there are no quotes and brackets in it, and
no white space at its ends. -/
def isWord (text : List Char) : Bool :=
  plain text && hasNonblankEnds text && text.all (· ≠ '\n')

theorem plain_of_isWord {text : List Char} (word : isWord text = true) : plain text = true :=
  (Bool.and_eq_true_iff.mp (Bool.and_eq_true_iff.mp word).1).1

/-- What stands in brackets: texts that are related, or nothing on both sides. -/
inductive Inside (R : List Char → List Char → Prop) : List Char → List Char → Prop
  | nothing : Inside R [] []
  | text {content content' : List Char} : R content content' → Inside R content content'

/-- A relation between texts, one for each depth of nesting, that survives the ways in which the
grammar puts texts together. What stands in brackets need not be related on its own: it may be
nothing, or end in a name without quotes. -/
structure Graded (like : Likeness) (flavor flavor' : Flavor) (layout layout' : Layout)
    (Bare : List Char → Prop) (R : Nat → List Char → List Char → Prop) : Prop where
  nothing : Bare []
  plain {name : List Char} : Word.isPlain name = true → Bare name
  word {text : List Char} (depth : Nat) : isWord text = true → R depth text text
  joined {separator first first' rest rest' : List Char} (depth : Nat) :
    Separator separator → R depth first first' → R depth rest rest' →
      R depth (first ++ separator ++ rest) (first' ++ separator ++ rest')
  gap {first first' rest rest' : List Char} (depth : Nat) :
    R depth first first' → R depth rest rest' →
      R depth (first ++ layout.gap depth ++ rest) (first' ++ layout'.gap depth ++ rest')
  nested {query query' : List Char} (depth : Nat) :
    R (depth + 1) query query' → R depth (nested layout depth query) (nested layout' depth query')
  called {name content content' : List Char} (depth : Nat) :
    Bare name → Inside (R depth) content content' →
      R depth (name ++ bracketed content) (name ++ bracketed content')
  converted {text text' : List Char} (depth : Nat) (type : SqlType) :
    (∀ name, type = .custom name → Bare name.toList) → R depth text text' →
      R depth ("CAST".toList ++ bracketed (phrase [text, "AS".toList, type.name.toList]))
        ("CAST".toList ++ bracketed (phrase [text', "AS".toList, type.name.toList]))
  unknown {kind : List Char} (depth : Nat) :
    Bare kind → R depth (bracketed kind) (bracketed kind)
  quoted {name name' : String} (depth : Nat) :
    like.name name name' → R depth (quoted flavor name) (quoted flavor' name')
  page {page page' : Page} (depth : Nat) :
    like.page page page' →
      List.Forall₂ (R depth) (pageClause flavor page) (pageClause flavor' page')
  kind {node node' : Foreign} : like.foreign node node' → node.kind = node'.kind

structure AssignedAlike (like : Likeness) (R : List Char → List Char → Prop)
    (a b : Assigned) : Prop where
  name : like.name a.column.name b.column.name
  value : R a.value b.value

namespace Graded

variable {like : Likeness} {flavor flavor' : Flavor} {layout layout' : Layout}
  {Bare : List Char → Prop} {R : Nat → List Char → List Char → Prop}
variable (graded : Graded like flavor flavor' layout layout' Bare R) {depth : Nat}
  {name text text' separator separator' : List Char} {texts texts' : List (List Char)}

include graded

omit graded in
/-- Related texts stay so with the same separator between them. -/
theorem intercalate
    (joined : ∀ {first first' rest rest' : List Char}, R depth first first' →
      R depth rest rest' → R depth (first ++ separator ++ rest) (first' ++ separator' ++ rest'))
    (each : List.Forall₂ (R depth) (text :: texts) (text' :: texts')) :
    R depth (separator.intercalate (text :: texts)) (separator'.intercalate (text' :: texts')) := by
  induction texts generalizing text text' texts' with
  | nil =>
    obtain ⟨head, tail⟩ := List.forall₂_cons.mp each
    cases tail
    rw [List.intercalate_singleton, List.intercalate_singleton]
    exact head
  | cons next texts ih =>
    obtain ⟨head, tail⟩ := List.forall₂_cons.mp each
    cases tail with
    | cons second others =>
      rw [List.intercalate_cons_cons, List.intercalate_cons_cons]
      exact joined head (ih (.cons second others))

theorem phrase (each : List.Forall₂ (R depth) (text :: texts) (text' :: texts')) :
    R depth (phrase (text :: texts)) (phrase (text' :: texts')) :=
  intercalate (graded.joined depth .blank) each

theorem listed (each : List.Forall₂ (R depth) (text :: texts) (text' :: texts')) :
    R depth (listed (text :: texts)) (listed (text' :: texts')) :=
  intercalate (graded.joined depth .comma) each

theorem stanza (each : List.Forall₂ (R depth) (text :: texts) (text' :: texts')) :
    R depth (stanza layout depth (text :: texts)) (stanza layout' depth (text' :: texts')) :=
  intercalate (graded.gap depth) each

theorem inside (each : List.Forall₂ (R depth) texts texts') :
    Inside (R depth) (Grammar.listed texts) (Grammar.listed texts') := by
  cases each with
  | nil => exact .nothing
  | cons head tail => exact .text (graded.listed (.cons head tail))

theorem bracketed (inside : Inside (R depth) text text') :
    R depth (bracketed text) (bracketed text') :=
  graded.called depth graded.nothing inside

/-- Brackets stand in both texts or in neither. -/
theorem operand {a b : Scalar} (alike : a.Alike like b) (inside : R depth text text') :
    R depth (operand a text) (operand b text') := by
  rw [Grammar.operand, Grammar.operand, alike.needsBrackets]
  split
  · exact graded.bracketed (.text inside)
  · exact inside

/-! ### Names -/

theorem qualified {name name' : Option String} (names : Option.Rel like.name name name')
    (rest : R depth text text') :
    R depth (qualifier flavor name ++ text) (qualifier flavor' name' ++ text') := by
  cases names with
  | none => exact rest
  | some related => exact graded.joined depth .dot (graded.quoted depth related) rest

theorem column {a b : Column} (alike : a.Alike like b) :
    R depth (column flavor a) (column flavor' b) :=
  graded.qualified alike.table (graded.quoted depth alike.name)

theorem tableName {a b : Table} (alike : a.Alike like b) :
    R depth (tableName flavor a) (tableName flavor' b) := by
  rw [Grammar.tableName, Grammar.tableName, List.append_assoc, List.append_assoc]
  exact graded.qualified alike.catalog
    (graded.qualified alike.schema (graded.quoted depth alike.name))

theorem columnNames {columns columns' : List Column}
    (names : List.Forall₂ (fun a b => like.name a.name b.name) columns columns') :
    R depth (columnNames flavor columns) (columnNames flavor' columns') := by
  refine graded.bracketed (graded.inside ?_)
  exact List.rel_map (fun _ _ related => graded.quoted depth related) names

/-! ### Words of a phrase -/

theorem fixed (s : String) (word : isWord s.toList = true) : R depth s.toList s.toList :=
  graded.word depth word

theorem wordIf (condition : Bool) (s : String) (word : isWord s.toList = true) :
    List.Forall₂ (R depth) (wordIf condition s) (wordIf condition s) := by
  cases condition with
  | false => exact .nil
  | true => exact .cons (graded.fixed s word) .nil

theorem optionalName {name name' : Option String} (names : Option.Rel like.name name name') :
    List.Forall₂ (R depth) (name.elim [] fun name => [Grammar.quoted flavor name])
      (name'.elim [] fun name => [Grammar.quoted flavor' name]) := by
  cases names with
  | none => exact .nil
  | some related => exact .cons (graded.quoted depth related) .nil

theorem listIfAny (each : List.Forall₂ (R depth) texts texts') :
    List.Forall₂ (R depth) (listIfAny texts) (listIfAny texts') := by
  cases each with
  | nil => exact .nil
  | cons head tail => exact .cons (graded.listed (.cons head tail)) .nil

theorem optionalWords (head : String) (word : isWord head.toList = true)
    {content content' : Option (List Char)} (inside : Option.Rel (R depth) content content') :
    List.Forall₂ (R depth) (content.elim [] fun text => [head.toList, text])
      (content'.elim [] fun text => [head.toList, text]) := by
  cases inside with
  | none => exact .nil
  | some related => exact .cons (graded.fixed head word) (.cons related .nil)

theorem optionalClause (head : String) (word : isWord head.toList = true)
    {content content' : Option (List Char)} (inside : Option.Rel (R depth) content content') :
    List.Forall₂ (R depth) (optionalClause head content) (optionalClause head content') := by
  cases inside with
  | none => exact .nil
  | some related =>
    exact .cons (graded.phrase (.cons (graded.fixed head word) (.cons related .nil))) .nil

theorem listClause (head : String) (word : isWord head.toList = true)
    (each : List.Forall₂ (R depth) texts texts') :
    List.Forall₂ (R depth) (listClause head texts) (listClause head texts') := by
  cases each with
  | nil => exact .nil
  | cons first rest =>
    have listed := graded.listed (.cons first rest)
    exact .cons (graded.phrase (.cons (graded.fixed head word) (.cons listed .nil))) .nil

/-- An empty list of columns is a star on both sides. -/
theorem selection (each : List.Forall₂ (R depth) texts texts') :
    R depth (selection texts) (selection texts') := by
  cases each with
  | nil => exact graded.word depth (by decide)
  | cons head tail => exact graded.listed (.cons head tail)

/-- What stands in the brackets of an aggregate. -/
theorem aggregated (distinct : Bool) {content content' : Option (List Char)}
    (inside : Option.Rel (R depth) content content') :
    R depth (Grammar.phrase (Grammar.wordIf distinct "DISTINCT" ++ [content.getD ['*']]))
      (Grammar.phrase (Grammar.wordIf distinct "DISTINCT" ++ [content'.getD ['*']])) := by
  have operand : R depth (content.getD ['*']) (content'.getD ['*']) := by
    cases inside with
    | none => exact graded.word depth (by decide)
    | some related => exact related
  cases distinct with
  | false => exact graded.phrase (.cons operand .nil)
  | true =>
    exact graded.phrase (.cons (graded.fixed "DISTINCT" (by decide)) (.cons operand .nil))

/-! ### Rows -/

section Rows

variable {row row' : List Assigned} {rows rows' : List (List Assigned)}

theorem settings (alike : List.Forall₂ (AssignedAlike like (R depth)) row row') :
    List.Forall₂ (R depth) (settings flavor row) (settings flavor' row') := by
  refine graded.listIfAny (List.rel_map (fun a b related => ?_) alike)
  exact graded.phrase (.cons (graded.quoted depth related.name)
    (.cons (graded.word depth (by decide)) (.cons related.value .nil)))

omit graded in
theorem names_head
    (alike : List.Forall₂ (List.Forall₂ (AssignedAlike like (R depth))) rows rows') :
    List.Forall₂ (fun a b => like.name a.name b.name)
      ((rows.head?.getD []).map Assigned.column) ((rows'.head?.getD []).map Assigned.column) := by
  cases alike with
  | nil => exact .nil
  | cons head tail => exact List.rel_map (fun _ _ related => related.name) head

/-- The columns of the first row are named on both sides. -/
theorem insertRows {into into' : Table} (tables : into.Alike like into')
    (alike : List.Forall₂ (List.Forall₂ (AssignedAlike like (R depth))) rows rows') :
    List.Forall₂ (R depth) (insertRows flavor into rows) (insertRows flavor' into' rows') := by
  have values : List.Forall₂ (R depth) (rows.map rowValues) (rows'.map rowValues) :=
    List.rel_map (fun _ _ row => graded.bracketed
      (graded.inside (List.rel_map (fun _ _ related => related.value) row))) alike
  exact List.rel_append
    (.cons (graded.fixed _ (by decide)) (.cons (graded.tableName tables)
      (.cons (graded.columnNames (names_head alike))
        (.cons (graded.fixed _ (by decide)) .nil))))
    (graded.listIfAny values)

theorem duplicateKeyClause (alike : List.Forall₂ (AssignedAlike like (R depth)) row row') :
    List.Forall₂ (R depth) (duplicateKeyClause flavor row) (duplicateKeyClause flavor' row') := by
  have updates := graded.settings alike
  cases alike with
  | nil => exact .nil
  | cons head tail => exact .cons (graded.fixed _ (by decide)) updates

theorem conflictClause {conflict conflict' : List Column}
    (names : List.Forall₂ (fun a b => like.name a.name b.name) conflict conflict')
    (alike : List.Forall₂ (AssignedAlike like (R depth)) row row') :
    List.Forall₂ (R depth) (conflictClause flavor conflict row)
      (conflictClause flavor' conflict' row') := by
  have columns : R depth _ _ := graded.columnNames names
  have updates := graded.settings alike
  cases names with
  | nil => exact .nil
  | cons =>
    refine .cons (graded.fixed _ (by decide)) (.cons columns ?_)
    cases alike with
    | nil => exact .cons (graded.fixed _ (by decide)) .nil
    | cons => exact .cons (graded.fixed _ (by decide)) updates

end Rows

end Graded

namespace Parallel

variable {like : Likeness} {flavor flavor' : Flavor} {layout layout' : Layout}
  {Bare : List Char → Prop} {R : List Char → List Char → Prop}
  (parallel : Parallel like flavor flavor' layout layout' Bare R)

include parallel

theorem inside {text text' : List Char} (inside : Inside R text text') : R text text' := by
  cases inside with
  | nothing => exact parallel.bare (parallel.plain rfl)
  | text related => exact related

/-- A relation that does not ask for the depth. -/
theorem graded : Graded like flavor flavor' layout layout' Bare fun _ => R where
  nothing := parallel.plain rfl
  plain simple := parallel.plain (plain_of_all (Word.isPlain.parts simple) rfl)
  word _ word := parallel.bare (parallel.plain (plain_of_isWord word))
  joined _ := parallel.joined
  gap := parallel.gap
  nested := parallel.nested
  called _ bare inside := parallel.called bare (parallel.inside inside)
  converted _ type bare inside :=
    parallel.called (parallel.plain (by decide)) (parallel.converted inside type bare)
  unknown _ bare := parallel.bracketed (parallel.bare bare)
  quoted _ := parallel.quoted
  page _ := parallel.page
  kind := parallel.kind

theorem listed {texts texts' : List (List Char)} (each : List.Forall₂ R texts texts') :
    R (listed texts) (listed texts') :=
  parallel.inside (@Graded.inside _ _ _ _ _ _ _ parallel.graded 0 _ _ each)

/-- What stands in the brackets of an aggregate. -/
theorem aggregated (distinct : Bool) {content content' : Option (List Char)}
    (inside : Option.Rel R content content') :
    R (phrase (wordIf distinct "DISTINCT" ++ [content.getD ['*']]))
      (phrase (wordIf distinct "DISTINCT" ++ [content'.getD ['*']])) :=
  @Graded.aggregated _ _ _ _ _ _ _ parallel.graded 0 distinct _ _ inside

end Parallel

/-! ### Texts with something between them -/

/-- A relation between texts that holds for free ones, and for texts that have something free
between them. Brackets and plain texts are free. -/
structure Separated (Free : List Char → Prop) (R : List Char → List Char → Prop) : Prop where
  plain {text : List Char} : Grammar.plain text = true → Free text
  opening : Free ['(']
  closing : Free [')']
  append {first rest : List Char} : Free first → Free rest → Free (first ++ rest)
  bare {text : List Char} : Free text → R text text
  joined {separator first first' rest rest' : List Char} :
    Free separator → separator ≠ [] → R first first' → R rest rest' →
      R (first ++ separator ++ rest) (first' ++ separator ++ rest')

namespace Separated

variable {Free : List Char → Prop} {R : List Char → List Char → Prop}
  (separated : Separated Free R) {word left right text text' : List Char}

include separated

theorem nothing : Free [] :=
  separated.plain rfl

/-- A text between brackets, which may have something free on their inner sides, and a free word in
front of them. -/
theorem grouped (freeWord : Free word) (freeLeft : Free left) (freeRight : Free right)
    (related : R text text') :
    R (word ++ '(' :: left ++ text ++ right ++ [')'])
      (word ++ '(' :: left ++ text' ++ right ++ [')']) := by
  have opening : Free ('(' :: left) := separated.append separated.opening freeLeft
  have closing : Free (right ++ [')']) := separated.append freeRight separated.closing
  have nonempty : right ++ [')'] ≠ [] := List.append_ne_nil_of_right_ne_nil _ (List.cons_ne_nil _ _)
  -- The brackets, with what stands on their inner sides, separate the text from what is around it.
  have opened := separated.joined opening (List.cons_ne_nil _ _) (separated.bare freeWord) related
  have closed := separated.joined closing nonempty opened (separated.bare separated.nothing)
  rwa [List.append_nil, List.append_nil, ← List.append_assoc, ← List.append_assoc] at closed

/-- Quoted names are never next to each other, so it is enough that the relation holds for them. -/
theorem parallel {like : Likeness} {flavor flavor' : Flavor} (options : FormatOptions)
    (quoted : ∀ {name name' : String}, like.name name name' →
      R (quoted flavor name) (quoted flavor' name'))
    (page : ∀ {page page' : Page}, like.page page page' →
      List.Forall₂ R (pageClause flavor page) (pageClause flavor' page'))
    (kind : ∀ {node node' : Foreign}, like.foreign node node' → node.kind = node'.kind) :
    Parallel like flavor flavor' options.layout options.layout Free R where
  plain := separated.plain
  bare := separated.bare
  joined between := separated.joined (separated.plain between.plain) between.ne_nil
  gap depth :=
    separated.joined (separated.plain (plain_gap options depth)) (gap_ne_nil options depth)
  bracketed related := by
    have nothing := separated.nothing
    simpa [bracketed] using separated.grouped nothing nothing nothing related
  nested depth related :=
    separated.grouped separated.nothing (separated.plain (plain_edge options (depth + 1)))
      (separated.plain (plain_edge options depth)) related
  called free related := by
    have nothing := separated.nothing
    simpa [bracketed] using separated.grouped free nothing nothing related
  quoted := quoted
  page := page
  kind := kind

end Separated

end Grammar

/-! ## Trees -/

def Rendered.Alike (like : Likeness) (R : List Char → List Char → Prop) :
    (c : Category) → Rendered c → Rendered c → Prop
  | .assignment, a, b => Grammar.AssignedAlike like R a b
  | .list c, texts, texts' => List.Forall₂ (Rendered.Alike like R c) texts texts'
  | .option c, content, content' => Option.Rel (Rendered.Alike like R c) content content'
  | .scalar, text, text' => R text text'
  | .source, text, text' => R text text'
  | .query, text, text' => R text text'
  | .order, text, text' => R text text'
  | .extension, text, text' => R text text'
  | .statement, text, text' => R text text'

/-- The texts in the parts of two nodes are related, at any depth. -/
def Slot.TextsAlike (like : Likeness) (flavor flavor' : Flavor) (layout layout' : Layout)
    (R : Nat → List Char → List Char → Prop) : (s : Slot) → s.Part → s.Part → Prop
  | .tree c, a, b => ∀ depth, Rendered.Alike like (R depth) c (a.render flavor layout depth)
    (b.render flavor' layout' depth)
  | .pair s t, a, b =>
    s.TextsAlike like flavor flavor' layout layout' R a.1 b.1 ∧
      t.TextsAlike like flavor flavor' layout layout' R a.2 b.2
  | _, _, _ => True

/-- The name that a node shows without quotes: that of a function, of a type that is not one of the
standard ones, or of a kind that is not known. -/
def Tree.bareName : {c : Category} → Tree c → List String
  | _, .call _ name _ _ => [name]
  | _, .cast _ _ (.custom name) => [name]
  | _, .foreign _ node => [node.kind]
  | _, _ => []

def Tree.bareContribution : Contribution String where
  before node := node.bareName

def Tree.bareNames {c : Category} (tree : Tree c) : List String :=
  tree.collect Tree.bareContribution

section Trees

open Grammar

variable {like : Likeness} {flavor flavor' : Flavor} {layout layout' : Layout}
  {Bare : List Char → Prop} {R : Nat → List Char → List Char → Prop}
  (graded : Graded like flavor flavor' layout layout' Bare R)

include graded

theorem Frame.textsAlike_build {c : Category} {s : Slot} (frame : Frame c s) {a b : s.Part}
    (alike : Alike like s a b) (inside : s.TextsAlike like flavor flavor' layout layout' R a b)
    (depth : Nat) :
    Rendered.Alike like (R depth) c ((frame.build a).render flavor layout depth)
      ((frame.build b).render flavor' layout' depth) := by
  cases frame with
  | column =>
    cases alike with
    | column column => exact graded.column column
  | argument =>
    have placeholder : isWord ['?'] = true := by decide
    exact graded.word depth placeholder
  | table =>
    cases alike with
    | table table =>
      exact graded.phrase
        (.cons (graded.tableName table) (graded.optionalName table.aliasName))
  | scalarExtension | sourceExtension | queryStatement | scalarStatement | sourceStatement
  | extensionStatement => exact inside depth
  | nil => exact .nil
  | cons => exact .cons (inside.1 depth) (inside.2 depth)
  | absent => exact .none
  | present => exact .some (inside depth)

variable {s : Slot} (id id' : NodeId) {a b : s.Part} (alike : SqlTree.Alike like s a b)
  (inside : s.TextsAlike like flavor flavor' layout layout' R a b) (depth : Nat)

include alike inside

/-- One case for each scalar; only calls and casts have names without quotes. -/
theorem Form.textsAlike_scalar {form form' : Form .scalar s} (related : form.Alike like form')
    (names : ∀ name ∈ (form.build id a).bareName, Bare name.toList) :
    R depth ((form.build id a).render flavor layout depth)
      ((form'.build id' b).render flavor' layout' depth) := by
  have negation (negated : Bool) :
      List.Forall₂ (R depth) (wordIf negated "NOT") (wordIf negated "NOT") :=
    graded.wordIf negated "NOT" (by decide)
  cases related with
  | declare name =>
    refine graded.phrase (.cons (inside depth) ?_)
    cases name with
    | none => exact .nil
    | some related =>
      exact .cons (graded.fixed "AS" (by decide)) (.cons (graded.quoted depth related) .nil)
  | binary op =>
    have symbol : R depth op.symbol.toList op.symbol.toList :=
      graded.word depth (by cases op <;> decide)
    exact graded.phrase (.cons (graded.operand alike.fst (inside.1 depth))
      (.cons symbol (.cons (graded.operand alike.snd (inside.2 depth)) .nil)))
  | unary op =>
    change R depth (if op.followsOperand then _ else _) (if op.followsOperand then _ else _)
    have symbol : R depth op.symbol.toList op.symbol.toList :=
      graded.word depth (by cases op <;> decide)
    have inner : R depth (operand a (a.render flavor layout depth))
        (operand b (b.render flavor' layout' depth)) := graded.operand alike (inside depth)
    split
    · exact graded.phrase (.cons inner (.cons symbol .nil))
    · exact graded.phrase (.cons symbol (.cons inner .nil))
  | between negated =>
    refine graded.phrase (.cons (graded.operand alike.fst.fst (inside.1.1 depth))
      (List.rel_append (negation negated) ?_))
    exact .cons (graded.fixed "BETWEEN" (by decide))
      (.cons (graded.operand alike.fst.snd (inside.1.2 depth))
        (.cons (graded.fixed "AND" (by decide))
          (.cons (graded.operand alike.snd (inside.2 depth)) .nil)))
  | inValues negated =>
    refine graded.phrase (.cons (graded.operand alike.fst (inside.1 depth))
      (List.rel_append (negation negated) ?_))
    exact .cons (graded.fixed "IN" (by decide))
      (.cons (graded.bracketed (graded.inside (inside.2 depth))) .nil)
  | inQuery negated =>
    refine graded.phrase (.cons (graded.operand alike.fst (inside.1 depth))
      (List.rel_append (negation negated) ?_))
    exact .cons (graded.fixed "IN" (by decide))
      (.cons (graded.nested depth (inside.2 (depth + 1))) .nil)
  | existsQuery negated =>
    have rest : List.Forall₂ (R depth)
        ["EXISTS".toList, nested layout depth (a.render flavor layout (depth + 1))]
        ["EXISTS".toList, nested layout' depth (b.render flavor' layout' (depth + 1))] :=
      .cons (graded.fixed "EXISTS" (by decide))
        (.cons (graded.nested depth (inside (depth + 1))) .nil)
    cases negated with
    | false => exact graded.phrase rest
    | true => exact graded.phrase (.cons (graded.fixed "NOT" (by decide)) rest)
  | aggregate function distinct =>
    have symbol : Bare function.symbol.toList := graded.plain (by cases function <;> decide)
    exact graded.called depth symbol (.text (graded.aggregated distinct (inside depth)))
  | call name =>
    exact graded.called depth (names name List.mem_cons_self) (graded.inside (inside depth))
  | cast type =>
    refine graded.converted depth type ?_ (inside depth)
    rintro name rfl
    exact names name List.mem_cons_self

omit alike in
theorem Form.textsAlike_source {form form' : Form .source s} (related : form.Alike like form') :
    R depth ((form.build id a).render flavor layout depth)
      ((form'.build id' b).render flavor' layout' depth) := by
  cases related with
  | join kind =>
    have keyword : R depth kind.keyword.toList kind.keyword.toList :=
      graded.word depth (by cases kind <;> decide)
    refine graded.stanza (.cons (inside.1.1 depth) (.cons ?_ .nil))
    exact graded.phrase (.cons keyword (.cons (inside.1.2 depth)
      (graded.optionalWords "ON" (by decide) (inside.2 depth))))
  | subquery aliasName =>
    exact graded.phrase
      (.cons (graded.nested depth (inside (depth + 1))) (graded.optionalName aliasName))

omit alike in
/-- One case for each query; its page has to be written alike. -/
theorem Form.textsAlike_query {form form' : Form .query s} (related : form.Alike like form') :
    R depth ((form.build id a).render flavor layout depth)
      ((form'.build id' b).render flavor' layout' depth) := by
  cases related with
  | select distinct page =>
    obtain ⟨⟨⟨⟨⟨columns, source⟩, condition⟩, groupBy⟩, having⟩, orderBy⟩ := inside
    refine graded.stanza (.cons ?_ (.cons ?_ (List.rel_append (List.rel_append
      (List.rel_append (List.rel_append ?_ ?_) ?_) ?_) (graded.page depth page))))
    · exact graded.phrase (.cons (graded.fixed "SELECT" (by decide))
        (List.rel_append (graded.wordIf distinct "DISTINCT" (by decide))
          (.cons (graded.selection (columns depth)) .nil)))
    · exact graded.phrase (.cons (graded.fixed "FROM" (by decide)) (.cons (source depth) .nil))
    · exact graded.optionalClause "WHERE" (by decide) (condition depth)
    · exact graded.listClause "GROUP BY" (by decide) (groupBy depth)
    · exact graded.optionalClause "HAVING" (by decide) (having depth)
    · exact graded.listClause "ORDER BY" (by decide) (orderBy depth)
  | union all page =>
    have keyword : R depth (if all then "UNION ALL" else "UNION").toList
        (if all then "UNION ALL" else "UNION").toList :=
      graded.word depth (by cases all <;> decide)
    refine graded.stanza (.cons (graded.nested depth (inside.1.1 (depth + 1)))
      (.cons keyword (.cons (graded.nested depth (inside.1.2 (depth + 1))) ?_)))
    exact List.rel_append (graded.listClause "ORDER BY" (by decide) (inside.2 depth))
      (graded.page depth page)

theorem Form.textsAlike_extension {form form' : Form .extension s}
    (related : form.Alike like form')
    (names : ∀ name ∈ (form.build id a).bareName, Bare name.toList) :
    R depth ((form.build id a).render flavor layout depth)
      ((form'.build id' b).render flavor' layout' depth) := by
  cases related with
  | duplicateKeyUpsert =>
    exact graded.phrase (List.rel_append
      (graded.insertRows alike.fst.fst.tables (.cons (inside.1.2 depth) .nil))
      (graded.duplicateKeyClause (inside.2 depth)))
  | bulkInsert =>
    exact graded.phrase (graded.insertRows alike.fst.tables (inside.2 depth))
  | naturalJoin =>
    refine graded.stanza (.cons (inside.1 depth) (.cons ?_ .nil))
    exact graded.phrase
      (.cons (graded.fixed "NATURAL JOIN" (by decide)) (.cons (inside.2 depth) .nil))
  | matchAgainst modifier =>
    have mode : List.Forall₂ (R depth) (modifier.elim [] fun modifier => [modifier.keyword.toList])
        (modifier.elim [] fun modifier => [modifier.keyword.toList]) := by
      cases modifier with
      | none => exact .nil
      | some modifier =>
        exact .cons (graded.word depth (by cases modifier <;> decide)) .nil
    have placeholder : R depth ['?'] ['?'] := graded.word depth (by decide)
    exact graded.phrase (.cons (graded.fixed "MATCH" (by decide))
      (.cons (graded.bracketed (graded.inside (inside depth)))
        (.cons (graded.fixed "AGAINST" (by decide)) (.cons (graded.bracketed
          (.text (graded.phrase (.cons placeholder mode)))) .nil))))
  | ilike =>
    exact graded.phrase (.cons (graded.operand alike.fst (inside.1 depth))
      (.cons (graded.fixed "ILIKE" (by decide))
        (.cons (graded.operand alike.snd (inside.2 depth)) .nil)))
  | conflictUpsert =>
    exact graded.phrase (List.rel_append
      (graded.insertRows alike.fst.fst.fst.tables (.cons (inside.1.1.2 depth) .nil))
      (graded.conflictClause alike.fst.snd.columnNames (inside.2 depth)))
  | @foreign node node' same =>
    have kind : R depth (bracketed node.kind.toList) (bracketed node'.kind.toList) := by
      rw [← graded.kind same]
      exact graded.unknown depth (names node.kind List.mem_cons_self)
    exact kind

theorem Form.textsAlike_statement {form form' : Form .statement s}
    (related : form.Alike like form') :
    R depth ((form.build id a).render flavor layout depth)
      ((form'.build id' b).render flavor' layout' depth) := by
  cases related with
  | insert =>
    exact graded.phrase
      (graded.insertRows alike.fst.tables (.cons (inside.2 depth) .nil))
  | insertFromQuery =>
    refine graded.stanza (.cons ?_ (.cons (inside.2 depth) .nil))
    exact graded.phrase (.cons (graded.fixed "INSERT INTO" (by decide))
      (.cons (graded.tableName alike.fst.fst.tables)
        (.cons (graded.columnNames alike.fst.snd.columnNames) .nil)))
  | update =>
    refine graded.stanza
      (.cons ?_ (graded.optionalClause "WHERE" (by decide) (inside.2 depth)))
    exact graded.phrase (.cons (graded.fixed "UPDATE" (by decide))
      (.cons (graded.tableName alike.fst.fst.tables)
        (.cons (graded.fixed "SET" (by decide)) (graded.settings (inside.1.2 depth)))))
  | delete =>
    refine graded.stanza
      (.cons ?_ (graded.optionalClause "WHERE" (by decide) (inside.2 depth)))
    exact graded.phrase (.cons (graded.fixed "DELETE FROM" (by decide))
      (.cons (graded.tableName alike.fst.tables) .nil))

/-- The texts of two nodes are related if those of their parts are. -/
theorem Form.textsAlike_build {c : Category} {form form' : Form c s}
    (related : form.Alike like form')
    (names : ∀ name ∈ (form.build id a).bareName, Bare name.toList) :
    Rendered.Alike like (R depth) c ((form.build id a).render flavor layout depth)
      ((form'.build id' b).render flavor' layout' depth) := by
  cases c with
  | scalar => exact textsAlike_scalar graded id id' alike inside depth related names
  | source => exact textsAlike_source graded id id' inside depth related
  | query => exact textsAlike_query graded id id' inside depth related
  | extension => exact textsAlike_extension graded id id' alike inside depth related names
  | statement => exact textsAlike_statement graded id id' alike inside depth related
  | assignment =>
    cases related
    exact ⟨alike.fst.sameColumn.name, inside.2 depth⟩
  | order =>
    cases related with
    | order descending =>
      exact graded.phrase (.cons (inside depth) (graded.wordIf descending "DESC" (by decide)))
  | list => cases related
  | option => cases related

omit alike inside in
/-- A relation that survives the ways of the grammar holds between the texts in the parts of two
nodes that are alike, if the names that stand there without quotes are bare. -/
theorem Alike.texts (alike : Alike like s a b)
    (names : ∀ name ∈ s.collect Tree.bareContribution a, Bare name.toList) :
    s.TextsAlike like flavor flavor' layout layout' R a b := by
  induction alike with
  | unit | table | column | argument | noColumns | moreColumns => trivial
  | pair _ _ ihFirst ihSecond =>
    exact ⟨ihFirst fun name member => names name (List.mem_append_left _ member),
      ihSecond fun name member => names name (List.mem_append_right _ member)⟩
  | frame frame inside ih =>
    have texts := ih fun name member => names name (frame.mem_collect_build member)
    exact frame.textsAlike_build graded inside texts
  | @node c s form form' id id' parts parts' related inside ih =>
    have texts := ih fun name member => names name (form.mem_collect_build (.inr member))
    have own := fun name member => names name (form.mem_collect_build (.inl member))
    exact fun depth => Form.textsAlike_build graded id id' inside texts depth related own

end Trees

/-- A relation that survives the ways of the grammar, whatever the depth, holds between the texts of
two trees that are alike, if the names that stand there without quotes are bare. -/
theorem Alike.render {like : Likeness} {flavor flavor' : Flavor} {layout layout' : Layout}
    {Bare : List Char → Prop} {R : List Char → List Char → Prop}
    (parallel : Grammar.Parallel like flavor flavor' layout layout' Bare R)
    {c : Category} {a b : Tree c} (alike : a.Alike like b)
    (names : ∀ name ∈ a.bareNames, Bare name.toList) (depth : Nat) :
    Rendered.Alike like R c (a.render flavor layout depth) (b.render flavor' layout' depth) :=
  Alike.texts parallel.graded alike names depth

end SqlTree
