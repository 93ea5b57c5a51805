import SqlTree.Proofs.Text.Masking

/-!
# Texts taken apart

A text consists of quoted names and of what stands between them. `segments` takes it apart, and
gives each name as it was before it was quoted: without the quotes around it, and with one quote for
every two inside. `spell` puts the segments together again, so nothing is lost. In this form texts
that quote with different characters can be compared.
-/

namespace SqlTree.Segments

open Masking

/-- A part of a text: a name that is quoted there, or what stands between two names. -/
inductive Segment where
  | between (text : List Char)
  | name (name : List Char)
  deriving DecidableEq, Repr

/-- Appends a character in front of the first segment. -/
def prepend (c : Char) : List Segment → List Segment
  | [] => []
  | .between text :: rest => .between (c :: text) :: rest
  | .name name :: rest => .name (c :: name) :: rest

/-- The segments of a text, from some place on. The first one is the one that the reader is in. -/
def segmentsFrom (quote : Char) : Place → List Char → List Segment
  | .outside, [] => [.between []]
  | .outside, c :: text =>
    if c = quote then .between [] :: segmentsFrom quote .inside text
    else prepend c (segmentsFrom quote .outside text)
  | .inside, [] => [.name []]
  | .inside, c :: text =>
    if c = quote then segmentsFrom quote .ending text
    else prepend c (segmentsFrom quote .inside text)
  | .ending, [] => [.name [], .between []]
  | .ending, c :: text =>
    if c = quote then prepend quote (segmentsFrom quote .inside text)
    else .name [] :: prepend c (segmentsFrom quote .outside text)

/-- The segments of a text: what stands in front of the first name, the name, what stands behind it,
and so on. -/
def segments (quote : Char) (text : List Char) : List Segment :=
  segmentsFrom quote .outside text

def spell (quote : Char) : List Segment → List Char
  | [] => []
  | .between text :: rest => text ++ spell quote rest
  | .name name :: rest => Quoted.enclose quote name ++ spell quote rest

variable {quote quote' : Char} {text text' rest rest' : List Char}

/-- A text without quotes belongs to the segment it stands in. -/
theorem segments_append_free (free : quote ∉ text) (rest : List Char) :
    segments quote (text ++ rest) = text.foldr prepend (segments quote rest) := by
  induction text with
  | nil => rfl
  | cons c text ih =>
    rw [List.mem_cons, not_or] at free
    rw [segments, List.cons_append, segmentsFrom, if_neg (Ne.symm free.1), List.foldr_cons]
    exact congrArg (prepend c) (ih free.2)

/-- A name ends at its closing quote, unless another quote follows. -/
theorem segmentsFrom_ending (apart : rest.head? ≠ some quote) :
    segmentsFrom quote .ending rest = .name [] :: segments quote rest := by
  cases rest with
  | nil => rfl
  | cons c rest =>
    have other : c ≠ quote := fun same => apart (congrArg some same)
    rw [segmentsFrom, if_neg other, segments, segmentsFrom, if_neg other]

/-- A quoted name is one segment, with its doubled quotes taken back. -/
theorem segmentsFrom_double (name : List Char) (apart : rest.head? ≠ some quote) :
    segmentsFrom quote .inside (Quoted.double quote name ++ quote :: rest) =
      .name name :: segments quote rest := by
  induction name with
  | nil =>
    rw [Quoted.double, List.nil_append, segmentsFrom, if_pos rfl]
    exact segmentsFrom_ending apart
  | cons c name ih =>
    rw [Quoted.double]
    split
    · next same =>
      rw [List.cons_append, List.cons_append, segmentsFrom, if_pos rfl, segmentsFrom, if_pos rfl,
        ih, same]
      rfl
    · next other =>
      rw [List.cons_append, segmentsFrom, if_neg other, ih]
      rfl

/-- A quoted name is a segment, whatever quotes it has inside. -/
theorem segments_enclose (name : List Char) (apart : rest.head? ≠ some quote) :
    segments quote (Quoted.enclose quote name ++ rest) =
      .between [] :: .name name :: segments quote rest := by
  rw [Quoted.enclose, List.append_assoc, List.cons_append, segments, segmentsFrom, if_pos rfl]
  exact congrArg (.between [] :: ·) (segmentsFrom_double name apart)

example : segments '"' "\"a\"\"b\".\"c\" = ?".toList =
    [.between [], .name "a\"b".toList, .between ['.'], .name ['c'], .between " = ?".toList] := by
  decide

/-! ## Segments put together again -/

/-- Where a reader is tells whether the first segment is a name. -/
theorem segmentsFrom_cons (place : Place) (text : List Char) :
    ∃ first rest, segmentsFrom quote place text =
      (if place = .outside then .between first else .name first) :: rest := by
  induction text generalizing place with
  | nil => cases place <;> exact ⟨[], _, rfl⟩
  | cons c text ih =>
    cases place with
    | outside =>
      rw [segmentsFrom]
      split
      · exact ⟨[], _, rfl⟩
      · obtain ⟨first, rest, found⟩ := ih .outside
        exact ⟨c :: first, rest, by rw [found]; rfl⟩
    | inside =>
      rw [segmentsFrom]
      split
      · exact ih .ending
      · obtain ⟨first, rest, found⟩ := ih .inside
        exact ⟨c :: first, rest, by rw [found]; rfl⟩
    | ending =>
      rw [segmentsFrom]
      split
      · obtain ⟨first, rest, found⟩ := ih .inside
        exact ⟨quote :: first, rest, by rw [found]; rfl⟩
      · exact ⟨[], _, rfl⟩

/-- What has been read of the segment that a reader is in, apart from its characters: the first
quote of a name, and its last one if it may be over. -/
def pending (quote : Char) : Place → List Char
  | .outside => []
  | .inside => [quote]
  | .ending => [quote, quote]

/-- Outside names, a character that is no quote is spelled as it is. -/
theorem spell_prepend_outside (c : Char) (text : List Char) :
    spell quote (prepend c (segments quote text)) = c :: spell quote (segments quote text) := by
  obtain ⟨first, others, found⟩ := segmentsFrom_cons .outside text
  rw [segments, found]
  rfl

/-- Inside a name, a character is spelled behind the first quote, twice if it is a quote itself. -/
theorem spell_prepend_inside {c : Char}
    (spelled : spell quote (segmentsFrom quote .inside text) = quote :: text) :
    spell quote (prepend c (segmentsFrom quote .inside text)) =
      quote :: (Quoted.double quote [c] ++ text) := by
  obtain ⟨first, others, found⟩ := segmentsFrom_cons .inside text
  rw [found] at spelled ⊢
  have inside : Quoted.double quote first ++ [quote] ++ spell quote others = text :=
    (List.cons.inj spelled).2
  rw [← inside, if_neg nofun, prepend, spell, Quoted.enclose, Quoted.double, Quoted.double]
  split <;> rfl

/-- From some place on, the segments spell the text behind what is pending there. -/
theorem spell_segmentsFrom (place : Place) (text : List Char)
    (ended : place.after quote text ≠ .inside) :
    spell quote (segmentsFrom quote place text) = pending quote place ++ text := by
  induction text generalizing place with
  | nil =>
    cases place with
    | inside => exact absurd rfl ended
    | outside | ending => rfl
  | cons c text ih =>
    -- A quote moves the reader on, and is pending then or doubled; any other character is kept.
    have spelled := ih _ ended
    by_cases same : c = quote
    · subst same
      cases place with
      | outside | inside =>
        rw [Place.next, if_pos rfl] at spelled
        rw [segmentsFrom, if_pos rfl]
        exact spelled
      | ending =>
        rw [Place.next, if_pos rfl] at spelled
        rw [segmentsFrom, if_pos rfl, spell_prepend_inside spelled, Quoted.double, if_pos rfl]
        rfl
    · cases place with
      | outside =>
        rw [Place.next, if_neg same] at spelled
        rw [segmentsFrom, if_neg same]
        exact (spell_prepend_outside c text).trans (congrArg (c :: ·) spelled)
      | inside =>
        rw [Place.next, if_neg same] at spelled
        rw [segmentsFrom, if_neg same, spell_prepend_inside spelled, Quoted.double, if_neg same]
        rfl
      | ending =>
        rw [Place.next, if_neg same] at spelled
        rw [segmentsFrom, if_neg same, spell]
        exact congrArg (_ ++ ·) ((spell_prepend_outside c text).trans (congrArg (c :: ·) spelled))

/-- The segments of a text have everything that the text has, if its last name is closed. -/
theorem spell_segments (ended : Ended quote text) : spell quote (segments quote text) = text :=
  spell_segmentsFrom .outside text ended

/-! ## The front of a text -/

def dropFront (blank : Char → Bool) : List Segment → List Segment
  | .between text :: rest => .between (text.dropWhile blank) :: rest
  | rest => rest

/-- White space in front of a text belongs to its first segment. -/
theorem segments_dropWhile {blank : Char → Bool} (visible : blank quote = false)
    (text : List Char) :
    segments quote (text.dropWhile blank) = dropFront blank (segments quote text) := by
  induction text with
  | nil => rfl
  | cons c text ih =>
    by_cases same : c = quote
    · rw [same, List.dropWhile_cons_of_neg (by simp [visible]), segments, segmentsFrom, if_pos rfl]
      rfl
    · obtain ⟨first, others, found⟩ := segmentsFrom_cons .outside text
      have shows : segments quote (c :: text) = .between (c :: first) :: others := by
        rw [segments, segmentsFrom, if_neg same, found]
        rfl
      cases dropped : blank c with
      | true =>
        rw [List.dropWhile_cons_of_pos dropped, ih, shows, segments, found, dropFront,
          List.dropWhile_cons_of_pos dropped]
        rfl
      | false =>
        have stays : ¬ blank c = true := by simp [dropped]
        rw [List.dropWhile_cons_of_neg stays, shows, dropFront, List.dropWhile_cons_of_neg stays]

/-! ## Texts with the same segments -/

/-- Texts with the same segments in front of any two texts that have the same segments and start
with no quote. -/
def SameSegments (quote quote' : Char) (text text' : List Char) : Prop :=
  ∀ rest rest' : List Char, rest.head? ≠ some quote → rest'.head? ≠ some quote' →
    segments quote rest = segments quote' rest' →
      segments quote (text ++ rest) = segments quote' (text' ++ rest')

namespace SameSegments

theorem same (agree : SameSegments quote quote' text text') :
    segments quote text = segments quote' text' := by
  have alone := agree [] [] nofun nofun rfl
  rwa [List.append_nil, List.append_nil] at alone

theorem of_free (free : quote ∉ text) (free' : quote' ∉ text) :
    SameSegments quote quote' text text := by
  intro rest rest' _ _ same
  rw [segments_append_free free, segments_append_free free', same]

theorem enclose (name : List Char) :
    SameSegments quote quote' (Quoted.enclose quote name) (Quoted.enclose quote' name) := by
  intro rest rest' apart apart' same
  rw [segments_enclose name apart, segments_enclose name apart', same]

theorem separated {first first' separator : List Char}
    (agree : SameSegments quote quote' first first') (free : quote ∉ separator)
    (free' : quote' ∉ separator) (nonempty : separator ≠ [])
    (agreeRest : SameSegments quote quote' rest rest') :
    SameSegments quote quote' (first ++ separator ++ rest) (first' ++ separator ++ rest') := by
  intro more more' apart apart' same
  have behind {q : Char} (free : q ∉ separator) (tail : List Char) :
      (separator ++ tail).head? ≠ some q := by
    obtain ⟨c, others, rfl⟩ := List.exists_cons_of_ne_nil nonempty
    rintro ⟨⟩
    exact free List.mem_cons_self
  simp only [List.append_assoc]
  refine agree _ _ (behind free _) (behind free' _) ?_
  rw [segments_append_free free, segments_append_free free', agreeRest _ _ apart apart' same]

end SameSegments

end SqlTree.Segments

namespace SqlTree

open Segments

/-- Every label stands for itself, and no query asks for a page. -/
def Likeness.unpaged : Likeness :=
  { equal with page := fun page page' => page.isPaginated = false ∧ page'.isPaginated = false }

theorem Likeness.unpaged_reflexive : unpaged.ReflexiveExceptPages :=
  { equal_reflexive with }

theorem separated_sameSegments (flavor flavor' : Flavor) :
    Grammar.Separated (fun text => flavor.quote ∉ text ∧ flavor'.quote ∉ text)
      (SameSegments flavor.quote flavor'.quote) where
  plain simple := ⟨Masking.quote_not_mem simple, Masking.quote_not_mem simple⟩
  opening := by cases flavor <;> cases flavor' <;> decide
  closing := by cases flavor <;> cases flavor' <;> decide
  append first rest := ⟨List.not_mem_append first.1 rest.1, List.not_mem_append first.2 rest.2⟩
  bare free := .of_free free.1 free.2
  joined free nonempty first rest := first.separated free.1 free.2 nonempty rest

/-- Flavors differ in their quotes, and in how they ask for a page. -/
theorem parallel_unpaged (flavor flavor' : Flavor) (options : FormatOptions) :
    Grammar.Parallel .unpaged flavor flavor' options.layout options.layout
      (fun text => flavor.quote ∉ text ∧ flavor'.quote ∉ text)
      (SameSegments flavor.quote flavor'.quote) := by
  refine (separated_sameSegments flavor flavor').parallel options ?_ ?_ (congrArg Foreign.kind)
  · rintro name _ rfl
    exact .enclose name.toList
  · rintro page page' ⟨whole, whole'⟩
    rw [Grammar.pageClause, Grammar.pageClause, whole, whole']
    exact .nil

end SqlTree
