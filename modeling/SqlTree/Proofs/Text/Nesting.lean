import SqlTree.Proofs.Text.Balance

/-!
# Line breaks and the brackets around them

A reader that goes through a text from left to right can keep the brackets that are open, and note
for each of them whether a line break follows it directly. A text is indented if at every line break
outside quoted names the number of blanks is the one that belongs to the number of such brackets:
the text of every tree is, if clauses stand on lines of their own.

Line breaks are judged where they stand. What comes in front of a text and behind it makes no
difference, since the text has no white space at its ends.
-/

namespace SqlTree.Nesting

/-! ## Readers -/

/-- What a reader knows about the place where it is. -/
structure Reader where
  quoted : Bool := false
  /-- Whether the last character has opened a bracket. -/
  opening : Bool := false
  /-- The brackets that are open, the innermost one first. Each one says whether a line break
  follows it directly. -/
  brackets : List Bool := []
  deriving DecidableEq

namespace Reader

variable (quote : Char)

def step (reader : Reader) (c : Char) : Reader :=
  if c = quote then { reader with quoted := !reader.quoted, opening := false }
  else if reader.quoted then reader
  else if c = '(' then { reader with opening := true, brackets := false :: reader.brackets }
  else if c = ')' then { reader with opening := false, brackets := reader.brackets.tail }
  else if reader.opening ∧ c = '\n' then
    { reader with opening := false, brackets := true :: reader.brackets.tail }
  else { reader with opening := false }

def read (reader : Reader) (text : List Char) : Reader :=
  text.foldl (step quote) reader

end Reader

/-- The brackets around the end of a text, the innermost one first, and whether a line break follows
each of them directly. -/
def enclosing (quote : Char) (text : List Char) : List Bool :=
  (Reader.read quote {} text).brackets

/-- How many of the brackets around a line break are followed by one themselves. The innermost one
does not count if it is closed by the next character. -/
def level (brackets : List Bool) (next : Char) : Nat :=
  (if next = ')' then brackets.tail else brackets).count true

/-- A line break between two texts: no white space in front of it, and behind it as many blanks as
its level asks for. -/
structure Break (quote : Char) (width : Nat → Nat) (reader : Reader) (front back : List Char) :
    Prop where
  ends : EndsNonblank front
  indented : ∃ blanks next rest, back = List.replicate blanks ' ' ++ next :: rest ∧
    Blank.isBlank next = false ∧
    blanks = width (level (reader.read quote (front ++ ['\n'])).brackets next)

/-- A text that leads a reader from one place to another, with proper line breaks. -/
structure Passes (quote : Char) (width : Nat → Nat) (start : Reader) (text : List Char)
    (finish : Reader) : Prop where
  reads : start.read quote text = finish
  breaks : ∀ front back, text = front ++ '\n' :: back →
    (start.read quote front).quoted = false → Break quote width start front back

/-- The text of a tree at some depth: it has no white space at its ends, closes the brackets that it
opens, and has proper line breaks. -/
structure Indented (quote : Char) (width : Nat → Nat) (depth : Nat) (text : List Char) : Prop where
  starts : ∃ first, text.head? = some first ∧ Blank.isBlank first = false ∧ first ≠ ')'
  ends : EndsNonblank text
  passes : ∀ reader : Reader, reader.quoted = false → reader.brackets.count true = depth →
    Passes quote width reader text { reader with opening := false }

variable {quote : Char} {width : Nat → Nat} {start middle finish : Reader}
  {text first rest front back : List Char}

theorem Reader.read_append (reader : Reader) (first rest : List Char) :
    reader.read quote (first ++ rest) = (reader.read quote first).read quote rest :=
  List.foldl_append

/-! ## Passing texts one after the other -/

/-- A line break stays proper if more text follows. -/
theorem Break.append (proper : Break quote width start front back) (more : List Char) :
    Break quote width start front (back ++ more) where
  ends := proper.ends
  indented := by
    obtain ⟨blanks, next, rest, rfl, visible, count⟩ := proper.indented
    refine ⟨blanks, next, rest ++ more, ?_, visible, count⟩
    rw [List.append_assoc, List.cons_append]

/-- A line break stays proper if it is reached from farther away. -/
theorem Break.behind (reads : start.read quote first = middle)
    (proper : Break quote width middle front back) :
    Break quote width start (first ++ front) back where
  ends := proper.ends.append first
  indented := by
    obtain ⟨blanks, next, rest, split, visible, count⟩ := proper.indented
    refine ⟨blanks, next, rest, split, visible, ?_⟩
    rw [List.append_assoc, Reader.read_append, reads, count]

theorem not_endsNonblank_nil : ¬ EndsNonblank [] := by
  rintro ⟨last, found, -⟩
  cases found

/-- A reader can be led through texts one after the other. -/
theorem Passes.append (passes : Passes quote width start first middle)
    (passesRest : Passes quote width middle rest finish) :
    Passes quote width start (first ++ rest) finish where
  reads := by rw [Reader.read_append, passes.reads, passesRest.reads]
  breaks := by
    intro front back split outside
    obtain ⟨between, rfl, splitRest⟩ | ⟨between, splitFirst, splitBack⟩ :=
      List.append_eq_append_iff.mp split
    · rw [Reader.read_append, passes.reads] at outside
      exact (passesRest.breaks between back splitRest outside).behind passes.reads
    · cases between with
      | nil =>
        -- No text that is passed starts with a line break.
        rw [List.append_nil] at splitFirst
        subst splitFirst
        rw [passes.reads] at outside
        exact absurd (passesRest.breaks [] back splitBack.symm outside).ends not_endsNonblank_nil
      | cons c between =>
        obtain ⟨rfl, rfl⟩ := List.cons.inj splitBack
        exact (passes.breaks front between splitFirst outside).append rest

/-- A text without line breaks is passed wherever it leads. -/
theorem passes_of_free (free : '\n' ∉ text) (reads : start.read quote text = finish) :
    Passes quote width start text finish where
  reads := reads
  breaks := by
    rintro front back rfl
    exact absurd (List.mem_append_right front List.mem_cons_self) free

/-! ## Reading -/

section Reading

variable (flavor : Flavor) {reader : Reader}

theorem Reader.step_plain {c : Char} (simple : c ∉ ['"', '\x60', '(', ')']) (other : c ≠ '\n')
    (outside : reader.quoted = false) :
    reader.step flavor.quote c = { reader with opening := false } := by
  simp only [List.mem_cons, List.not_mem_nil, or_false, not_or] at simple
  have notQuote : c ≠ flavor.quote := by cases flavor <;> simp [Flavor.quote, simple]
  simp [step, notQuote, outside, simple, other]

/-- A line break belongs to the bracket that it follows directly. -/
theorem Reader.step_newline (outside : reader.quoted = false) :
    reader.step flavor.quote '\n' =
      { reader with
        opening := false
        brackets := if reader.opening then true :: reader.brackets.tail else reader.brackets } := by
  have notQuote : '\n' ≠ flavor.quote := by cases flavor <;> decide
  cases opened : reader.opening <;> simp [step, notQuote, outside, opened]

/-- A text without quotes, brackets and line breaks says only that it is no opening bracket. -/
theorem Reader.read_plain (simple : Grammar.plain text = true) (free : '\n' ∉ text)
    (nonempty : text ≠ [] ∨ reader.opening = false) (outside : reader.quoted = false) :
    reader.read flavor.quote text = { reader with opening := false } := by
  induction text generalizing reader with
  | nil =>
    have settled : reader.opening = false := nonempty.resolve_left fun other => other rfl
    rw [read, List.foldl_nil, ← settled]
  | cons c text ih =>
    rw [Grammar.plain, List.all_cons, Bool.and_eq_true, decide_eq_true_eq] at simple
    rw [List.mem_cons, not_or] at free
    rw [read, List.foldl_cons, step_plain flavor simple.1 (Ne.symm free.1) outside]
    exact ih simple.2 free.2 (.inr rfl) outside

/-- A text without quotes and line breaks that closes the brackets it opens leaves those that were
open before. -/
theorem Reader.read_closed (free : quote ∉ text) (noBreak : '\n' ∉ text) {depth depth' : Nat}
    (walked : Brackets.walk quote { depth } text = some { depth := depth' }) {brackets : List Bool}
    (outside : reader.quoted = false)
    (opened : reader.brackets = List.replicate depth false ++ brackets) :
    (reader.read quote text).quoted = false ∧
      (reader.read quote text).brackets = List.replicate depth' false ++ brackets := by
  induction text generalizing reader depth with
  | nil =>
    cases walked
    exact ⟨outside, opened⟩
  | cons c text ih =>
    rw [List.mem_cons, not_or] at free noBreak
    have notQuote := Ne.symm free.1
    rw [Brackets.walk, Brackets.Place.step, if_neg notQuote] at walked
    rw [read, List.foldl_cons]
    by_cases opening : c = '('
    · subst opening
      refine ih free.2 noBreak.2 walked ?_ ?_
      · simp [step, notQuote, outside]
      · simp [step, notQuote, outside, opened, List.replicate_succ]
    · by_cases closing : c = ')'
      · subst closing
        cases depth with
        | zero => simp at walked
        | succ depth =>
          refine ih free.2 noBreak.2 walked ?_ ?_
          · simp [step, notQuote, outside]
          · simp [step, notQuote, outside, opened, List.replicate_succ]
      · rw [if_neg Bool.false_ne_true, if_neg opening, if_neg closing] at walked
        refine ih free.2 noBreak.2 walked ?_ ?_
        · simp [step, notQuote, outside, opening, closing, Ne.symm noBreak.1]
        · simp [step, notQuote, outside, opening, closing, Ne.symm noBreak.1, opened]

/-- A reader knows whether it is inside a quoted name. -/
theorem Reader.quoted_read {place : Masking.Place} (same : reader.quoted = (place = .inside : Bool))
    (text : List Char) :
    (reader.read quote text).quoted = (place.after quote text = .inside : Bool) := by
  induction text generalizing reader place with
  | nil => exact same
  | cons c text ih =>
    rw [read, List.foldl_cons, Masking.Place.after_cons]
    refine ih ?_
    by_cases isQuote : c = quote
    · cases place <;> simp_all [step, Masking.Place.next]
    · have unchanged : (reader.step quote c).quoted = reader.quoted := by
        rw [step, if_neg isQuote]
        split_ifs <;> rfl
      rw [unchanged, same]
      cases place <;> simp [Masking.Place.next, isQuote]

/-- Behind a text whose names are all closed the reader is outside of them. -/
theorem quoted_read_of_ended (ended : Masking.Ended quote text) :
    (Reader.read quote {} text).quoted = false := by
  have quoted : (Reader.read quote {} text).quoted =
      (Masking.Place.outside.after quote text = .inside : Bool) := Reader.quoted_read rfl text
  rw [quoted, decide_eq_false_iff_not]
  exact ended

end Reading

/-- Inside a quoted name nothing is said until its end, and line breaks do not count. -/
theorem passes_double (inside : start.quoted = true) (settled : start.opening = false)
    (newline : quote ≠ '\n') (name : List Char) :
    Passes quote width start (Quoted.double quote name) start := by
  induction name with
  | nil => exact passes_of_free List.not_mem_nil rfl
  | cons c name ih =>
    rw [Quoted.double]
    split
    · have twice : Passes quote width start [quote, quote] start := by
        refine passes_of_free (by simp [Ne.symm newline]) ?_
        obtain ⟨_, _, _⟩ := start
        simp_all [Reader.read, Reader.step]
      exact twice.append ih
    · next other =>
      have hidden : Passes quote width start [c] start := by
        refine ⟨by simp [Reader.read, Reader.step, other, inside], ?_⟩
        intro front back split outside
        cases front with
        | nil => exact absurd (inside.symm.trans outside) (by decide)
        | cons d front =>
          have short := congrArg List.length split
          simp at short
      exact hidden.append ih

/-- Nothing counts in a quoted name. -/
theorem passes_enclose (outside : start.quoted = false) (newline : quote ≠ '\n')
    (name : List Char) :
    Passes quote width start (Quoted.enclose quote name) { start with opening := false } := by
  have alone : '\n' ∉ [quote] := by simp [Ne.symm newline]
  have opened : Passes quote width start [quote]
      { start with quoted := true, opening := false } :=
    passes_of_free alone (by simp [Reader.read, Reader.step, outside])
  have closed : Passes quote width { start with quoted := true, opening := false } [quote]
      { start with opening := false } :=
    passes_of_free alone (by simp [Reader.read, Reader.step, outside])
  exact (opened.append (passes_double rfl rfl newline name)).append closed

theorem passes_opening (flavor : Flavor) (outside : start.quoted = false) :
    Passes flavor.quote width start ['(']
      { start with opening := true, brackets := false :: start.brackets } := by
  have notQuote : '(' ≠ flavor.quote := by cases flavor <;> decide
  exact passes_of_free (by decide) (by simp [Reader.read, Reader.step, notQuote, outside])

theorem passes_closing (flavor : Flavor) (outside : start.quoted = false) :
    Passes flavor.quote width start [')']
      { start with opening := false, brackets := start.brackets.tail } := by
  have notQuote : ')' ≠ flavor.quote := by cases flavor <;> decide
  exact passes_of_free (by decide) (by simp [Reader.read, Reader.step, notQuote, outside])

/-- Blanks are passed where no bracket has just been opened. -/
theorem passes_blanks (flavor : Flavor) (outside : start.quoted = false)
    (settled : start.opening = false) (blanks : Nat) :
    Passes flavor.quote width start (List.replicate blanks ' ') start := by
  have free : '\n' ∉ List.replicate blanks ' ' := by simp
  have plain : Grammar.plain (List.replicate blanks ' ') = true := by simp [Grammar.plain]
  refine passes_of_free free ?_
  rw [Reader.read_plain flavor plain free (.inr settled) outside, ← settled]

/-- A proper line break may stand between two texts. -/
theorem Passes.append_break (passes : Passes quote width start first middle)
    (proper : Break quote width start first rest)
    (passesRest : Passes quote width (middle.step quote '\n') rest finish) :
    Passes quote width start (first ++ '\n' :: rest) finish where
  reads := by
    rw [Reader.read_append, passes.reads]
    exact passesRest.reads
  breaks := by
    intro front back split outside
    obtain ⟨between, rfl, splitRest⟩ | ⟨between, rfl, splitBack⟩ :=
      List.append_eq_append_iff.mp split
    · cases between with
      | nil =>
        cases splitRest
        rw [List.append_nil]
        exact proper
      | cons c between =>
        obtain ⟨rfl, splitLine⟩ := List.cons.inj splitRest
        have read : start.read quote (first ++ ['\n']) = middle.step quote '\n' := by
          rw [Reader.read_append, passes.reads]
          rfl
        rw [List.append_cons] at outside ⊢
        rw [Reader.read_append, read] at outside
        exact (passesRest.breaks between back splitLine outside).behind read
    · cases between with
      | nil =>
        cases splitBack
        rw [List.append_nil] at proper
        exact proper
      | cons c between =>
        obtain ⟨rfl, rfl⟩ := List.cons.inj splitBack
        exact (passes.breaks front between rfl outside).append _

/-- A line break is proper if it is followed by the blanks of its level. -/
theorem Passes.line (flavor : Flavor) {next : Char}
    (passes : Passes flavor.quote width start first middle) (ends : EndsNonblank first)
    (outside : middle.quoted = false)
    (passesRest : Passes flavor.quote width (middle.step flavor.quote '\n') rest finish)
    (starts : rest.head? = some next) (visible : Blank.isBlank next = false) {blanks : Nat}
    (indented : blanks = width (level (middle.step flavor.quote '\n').brackets next)) :
    Passes flavor.quote width start (first ++ '\n' :: (List.replicate blanks ' ' ++ rest))
      finish := by
  refine passes.append_break ⟨ends, blanks, next, rest.tail, ?_, visible, ?_⟩ ?_
  · rw [List.cons_head?_tail starts]
  · rw [Reader.read_append, passes.reads]
    exact indented
  · have stepped := Reader.step_newline flavor outside
    refine (passes_blanks flavor ?_ ?_ blanks).append passesRest
    · rw [stepped]
      exact outside
    · rw [stepped]

/-! ## Texts that leave the brackets as they are -/

/-- A text that is passed and leaves the brackets that are open. -/
def Keeps (quote : Char) (width : Nat → Nat) (start : Reader) (text : List Char) : Prop :=
  ∃ opening, Passes quote width start text { start with opening }

theorem Keeps.append (keeps : Keeps quote width start first)
    (keepsRest : ∀ opening, Keeps quote width { start with opening } rest) :
    Keeps quote width start (first ++ rest) := by
  obtain ⟨opening, passes⟩ := keeps
  obtain ⟨opening', passesRest⟩ := keepsRest opening
  exact ⟨opening', passes.append passesRest⟩

theorem keeps_nil : Keeps quote width start [] :=
  ⟨start.opening, passes_of_free List.not_mem_nil rfl⟩

/-- A text on one line, without quotes and with all brackets closed. -/
structure Flat (quote : Char) (text : List Char) : Prop where
  free : quote ∉ text
  noBreak : '\n' ∉ text
  closed : Brackets.Closed quote text

theorem Flat.append (flat : Flat quote first) (flatRest : Flat quote rest) :
    Flat quote (first ++ rest) where
  free := List.not_mem_append flat.free flatRest.free
  noBreak := List.not_mem_append flat.noBreak flatRest.noBreak
  closed := flat.closed.append flatRest.closed

theorem Flat.keeps (flat : Flat quote text) (outside : start.quoted = false) :
    Keeps quote width start text := by
  obtain ⟨stillOutside, same⟩ :=
    Reader.read_closed flat.free flat.noBreak (flat.closed 0) outside (List.nil_append _).symm
  refine ⟨(start.read quote text).opening, passes_of_free flat.noBreak ?_⟩
  obtain ⟨_, _, _⟩ := start
  cases outside
  exact Reader.mk.injEq .. |>.mpr ⟨stillOutside, rfl, same⟩

section Texts

variable (flavor : Flavor)

theorem flat_plain (simple : Grammar.plain text = true) (free : '\n' ∉ text) :
    Flat flavor.quote text where
  free := Masking.quote_not_mem simple
  noBreak := free
  closed _ := Brackets.walk_plain flavor simple _

theorem flat_bracketed (flat : Flat flavor.quote text) :
    Flat flavor.quote (Grammar.bracketed text) where
  free := by
    have apart : flavor.quote ≠ '(' ∧ flavor.quote ≠ ')' := by cases flavor <;> decide
    simp [Grammar.bracketed, apart, flat.free]
  noBreak := by simp [Grammar.bracketed, flat.noBreak]
  closed := Brackets.closed_bracketed flavor flat.closed

/-- The name of a type is flat, unless it is one's own. -/
theorem flat_typeName (type : SqlType)
    (custom : ∀ name, type = .custom name → Flat flavor.quote name.toList) :
    Flat flavor.quote type.name.toList := by
  have part (part : Char → Bool) {word : List Char} (parts : word.all part = true)
      (other : ['"', '\x60', '(', ')', '\n'].any part = false) : Flat flavor.quote word := by
    have free := Word.free_of_all parts other
    refine flat_plain flavor ?_ fun member => ?_
    · exact Grammar.plain_of_all parts (by simp_all)
    · have other := List.all_eq_true.mp free _ member
      simp at other
  by_cases named : ∃ name, type = .custom name
  · obtain ⟨name, rfl⟩ := named
    exact custom name rfl
  · obtain ⟨word, plain, unsized | ⟨size, parts, sized⟩⟩ :=
      SqlType.spelling fun name same => named ⟨name, same⟩
    · rw [unsized]
      exact part Word.isPart (Word.isPlain.parts plain) rfl
    · rw [sized, List.append_assoc]
      exact (part Word.isPart (Word.isPlain.parts plain) rfl).append
        (flat_bracketed flavor (part SqlType.isSizePart parts rfl))

/-! ## Indented texts -/

/-- A name that may stand in a text without quotes. -/
structure Bare (name : List Char) : Prop extends Flat flavor.quote name where
  noBlank : ∀ c ∈ name, Blank.isBlank c = false

variable {flavor} {depth : Nat} {name content : List Char}

theorem Indented.keeps (indented : Indented quote width depth text)
    (outside : start.quoted = false) (deep : start.brackets.count true = depth) :
    Keeps quote width start text :=
  ⟨false, indented.passes start outside deep⟩

theorem Indented.starts_append (indented : Indented quote width depth text) (more : List Char) :
    ∃ first, (text ++ more).head? = some first ∧ Blank.isBlank first = false ∧ first ≠ ')' := by
  obtain ⟨first, found, visible⟩ := indented.starts
  refine ⟨first, ?_, visible⟩
  rw [List.head?_append, found, Option.some_or]

/-- A word is a text on one line, and has no white space at its ends. -/
theorem indented_word (word : Grammar.isWord text = true) :
    Indented flavor.quote width depth text := by
  obtain ⟨words, single⟩ := Bool.and_eq_true_iff.mp word
  obtain ⟨simple, nonblank⟩ := Bool.and_eq_true_iff.mp words
  have free : '\n' ∉ text := by
    intro member
    have other := List.all_eq_true.mp single _ member
    simp at other
  obtain ⟨ends, starts⟩ : NonblankEnds True text := Grammar.nonblank_of_hasNonblankEnds nonblank
  obtain ⟨first, found, visible⟩ := starts trivial
  refine ⟨⟨first, found, visible, ?_⟩, ends, fun reader outside _ => ?_⟩
  · rintro rfl
    have other := List.all_eq_true.mp simple _ (List.mem_of_head? found)
    simp at other
  · refine passes_of_free free (Reader.read_plain flavor simple free (.inl ?_) outside)
    rintro rfl
    cases found

/-- Texts may stand side by side on a line. -/
theorem Indented.joined {separator : List Char} (between : Grammar.Separator separator)
    (indented : Indented flavor.quote width depth first)
    (indentedRest : Indented flavor.quote width depth rest) :
    Indented flavor.quote width depth (first ++ separator ++ rest) where
  starts := by
    rw [List.append_assoc]
    exact indented.starts_append _
  ends := indentedRest.ends.append _
  passes := by
    intro reader outside deep
    have free : '\n' ∉ separator := by cases between <;> decide
    have middle : Passes flavor.quote width { reader with opening := false } separator
        { reader with opening := false } :=
      passes_of_free free (Reader.read_plain flavor between.plain free (.inr rfl) outside)
    exact ((indented.passes reader outside deep).append middle).append
      (indentedRest.passes _ outside deep)

/-- Behind a line break of its own level a text goes on as before. -/
theorem Indented.gap (indented : Indented flavor.quote width depth first)
    (indentedRest : Indented flavor.quote width depth rest) :
    Indented flavor.quote width depth
      (first ++ '\n' :: List.replicate (width depth) ' ' ++ rest) where
  starts := by
    rw [List.append_assoc]
    exact indented.starts_append _
  ends := indentedRest.ends.append _
  passes := by
    intro reader outside deep
    obtain ⟨next, found, visible, notClosing⟩ := indentedRest.starts
    have stepped : Reader.step flavor.quote { reader with opening := false } '\n' =
        { reader with opening := false } := Reader.step_newline flavor outside
    rw [List.append_assoc]
    refine (indented.passes reader outside deep).line flavor indented.ends outside ?_ found
      visible ?_
    · rw [stepped]
      exact indentedRest.passes _ outside deep
    · rw [stepped, level, if_neg notClosing, deep]

/-- Brackets around a query are followed by line breaks, so what stands in them is one level
deeper. -/
theorem Indented.nested {query : List Char}
    (indented : Indented flavor.quote width (depth + 1) query) :
    Indented flavor.quote width depth (Grammar.nested (.lines width) depth query) where
  starts := ⟨'(', rfl, by decide, by decide⟩
  ends := EndsNonblank.append ⟨')', rfl, by decide⟩ _
  passes := by
    intro reader outside deep
    obtain ⟨next, found, visible, notClosing⟩ := indented.starts
    have closed : Passes flavor.quote width
        { reader with opening := false, brackets := true :: reader.brackets } [')']
        { reader with opening := false } := passes_closing flavor outside
    -- The first line break marks the bracket, the second one is closed off by it.
    have marked : Reader.step flavor.quote
        { reader with opening := true, brackets := false :: reader.brackets } '\n' =
          { reader with opening := false, brackets := true :: reader.brackets } :=
      Reader.step_newline flavor outside
    have inside : Passes flavor.quote width reader
        (['('] ++ '\n' :: (List.replicate (width (depth + 1)) ' ' ++ query))
        { reader with opening := false, brackets := true :: reader.brackets } := by
      refine (passes_opening flavor outside).line flavor ⟨'(', rfl, by decide⟩ outside ?_ found
        visible ?_
      · rw [marked]
        exact indented.passes _ outside (by simp [deep])
      · rw [marked, level, if_neg notClosing, List.count_cons_self, deep]
    have unmarked : Reader.step flavor.quote
        { reader with opening := false, brackets := true :: reader.brackets } '\n' =
          { reader with opening := false, brackets := true :: reader.brackets } :=
      Reader.step_newline flavor outside
    have ends : EndsNonblank (['('] ++ '\n' :: (List.replicate (width (depth + 1)) ' ' ++ query)) :=
      indented.ends.append ('(' :: '\n' :: List.replicate (width (depth + 1)) ' ')
    have whole := inside.line flavor ends outside (unmarked ▸ closed) rfl (by decide)
      (by rw [unmarked, level, if_pos rfl, List.tail_cons, deep])
    simpa [Grammar.nested, Layout.lines] using whole

/-- A name does not start with a closing bracket. -/
theorem Bare.head_ne (bare : Bare flavor name) {c : Char} (found : name.head? = some c) :
    c ≠ ')' := by
  rintro rfl
  obtain ⟨tail, rfl⟩ := List.head?_eq_some_iff.mp found
  have notQuote : ')' ≠ flavor.quote := by cases flavor <;> decide
  have walked := bare.closed 0
  simp [Brackets.walk, Brackets.Place.step, notQuote] at walked

/-- Brackets that are not followed by a line break, behind a name. -/
theorem indented_called (bare : Bare flavor name)
    (keeps : ∀ reader : Reader, reader.quoted = false → reader.brackets.count true = depth →
      Keeps flavor.quote width reader content) :
    Indented flavor.quote width depth (name ++ Grammar.bracketed content) where
  starts := by
    cases name with
    | nil => exact ⟨'(', rfl, by decide, by decide⟩
    | cons c name => exact ⟨c, rfl, bare.noBlank c List.mem_cons_self, bare.head_ne rfl⟩
  ends := EndsNonblank.append (EndsNonblank.append ⟨')', rfl, by decide⟩ ('(' :: content)) name
  passes := by
    intro reader outside deep
    obtain ⟨opening, named⟩ : Keeps flavor.quote width reader name := bare.toFlat.keeps outside
    have opened : Passes flavor.quote width { reader with opening } ['(']
        { reader with opening := true, brackets := false :: reader.brackets } :=
      passes_opening flavor outside
    obtain ⟨opening', inside⟩ := keeps
      { reader with opening := true, brackets := false :: reader.brackets } outside
      (by simp [deep])
    have closed : Passes flavor.quote width
        { reader with opening := opening', brackets := false :: reader.brackets } [')']
        { reader with opening := false } := passes_closing flavor outside
    exact named.append ((opened.append inside).append closed)

/-- The characters of a word are no white space. -/
theorem isBlank_of_isPart {c : Char} (part : Word.isPart c = true) : Blank.isBlank c = false := by
  have bounds : 48 ≤ c.toNat ∧ c.toNat ≤ 122 := by
    have letter : c.isAlpha =
        (decide (c.val ≥ 65 ∧ c.val ≤ 90) || decide (c.val ≥ 97) && decide (c.val ≤ 122)) := rfl
    simp only [Word.isPart, Char.isAlphanum, letter, Char.isDigit, Bool.or_eq_true,
      Bool.and_eq_true, decide_eq_true_eq, beq_iff_eq, UInt32.le_iff_toNat_le, ge_iff_le] at part
    obtain ((upper | lower) | digit) | rfl := part
    · exact ⟨Nat.le_trans (by decide) upper.1, Nat.le_trans upper.2 (by decide)⟩
    · exact ⟨Nat.le_trans (by decide) lower.1, Nat.le_trans lower.2 (by decide)⟩
    · exact ⟨Nat.le_trans (by decide) digit.1, Nat.le_trans digit.2 (by decide)⟩
    · decide
  have apart : ∀ range ∈ Blank.ranges, range.2 < 48 ∨ 122 < range.1 := by decide
  refine List.any_eq_false.mpr fun range member => ?_
  have other := apart range member
  rw [Bool.and_eq_true, decide_eq_true_eq, decide_eq_true_eq]
  omega

theorem bare_plain (plain : Word.isPlain name = true) : Bare flavor name := by
  have parts := Word.isPlain.parts plain
  have noBlank : ∀ c ∈ name, Blank.isBlank c = false := fun c member =>
    isBlank_of_isPart (List.all_eq_true.mp parts c member)
  refine ⟨flat_plain flavor (Grammar.plain_of_all parts rfl) fun member => ?_, noBlank⟩
  exact absurd (noBlank _ member) (by decide)

theorem bare_nil : Bare flavor [] :=
  ⟨⟨List.not_mem_nil, List.not_mem_nil, fun _ => rfl⟩, fun _ member =>
    absurd member List.not_mem_nil⟩

/-- A name may have line breaks and brackets; a reader does not see them. -/
theorem indented_quoted (name : String) :
    Indented flavor.quote width depth (Grammar.quoted flavor name) := by
  have nonblank : NonblankEnds True (Grammar.quoted flavor name) := Grammar.nonblank_quoted name
  have apart : flavor.quote ≠ '\n' ∧ flavor.quote ≠ ')' := by cases flavor <;> decide
  have visible : Blank.isBlank flavor.quote = false := by cases flavor <;> decide
  exact ⟨⟨flavor.quote, rfl, visible, apart.2⟩, nonblank.ends, fun reader outside _ =>
    passes_enclose outside apart.1 name.toList⟩

/-- What stands in the brackets of a cast. -/
theorem Indented.keeps_converted (indented : Indented flavor.quote width depth text)
    (type : SqlType) (custom : ∀ name, type = .custom name → Bare flavor name.toList)
    {reader : Reader} (outside : reader.quoted = false)
    (deep : reader.brackets.count true = depth) :
    Keeps flavor.quote width reader
      (Grammar.phrase [text, "AS".toList, type.name.toList]) := by
  have target : Flat flavor.quote (" AS ".toList ++ type.name.toList) :=
    (flat_plain flavor (by decide) (by decide)).append
      (flat_typeName flavor type fun name same => (custom name same).toFlat)
  have spelled : Grammar.phrase [text, "AS".toList, type.name.toList] =
      text ++ (" AS ".toList ++ type.name.toList) := by
    simp [Grammar.phrase, List.intercalate_cons_cons]
  rw [spelled]
  exact (indented.keeps outside deep).append fun _ => target.keeps outside

end Texts

/-- On lines of their own the clauses of every tree are indented. -/
theorem graded_indented (flavor : Flavor) (width : Nat → Nat) :
    Grammar.Graded .equal flavor flavor (.lines width) (.lines width) (Bare flavor)
      fun depth text _ => Indented flavor.quote width depth text where
  nothing := bare_nil
  plain := bare_plain
  word _ := indented_word
  joined _ between indented indentedRest := indented.joined between indentedRest
  gap _ indented indentedRest := indented.gap indentedRest
  nested _ indented := indented.nested
  called _ bare inside := by
    refine indented_called bare fun reader outside deep => ?_
    cases inside with
    | nothing => exact keeps_nil
    | text indented => exact indented.keeps outside deep
  converted _ type custom indented :=
    indented_called (bare_plain (by decide)) fun _ => indented.keeps_converted type custom
  unknown _ bare := indented_called bare_nil fun _ outside _ => bare.toFlat.keeps outside
  quoted _ _ := indented_quoted _
  page := by
    rintro page _ depth rfl
    rw [Grammar.pageClause]
    split
    · exact .cons (indented_word (by cases flavor <;> decide)) .nil
    · exact .nil
  kind same := congrArg Foreign.kind same

end SqlTree.Nesting
