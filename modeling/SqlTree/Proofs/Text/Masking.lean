import Mathlib.Data.List.Count
import SqlTree.Proofs.Text.Parallel

/-!
# Texts without the names they quote

A reader that goes through a text from left to right can put a mark in the place of every quoted
name. Inside a name a quote ends it, unless another quote follows: the two then stand for one quote
of the name, and the name goes on. So two names may not touch, and they never do: something that is
no quote stands between them in the text of every tree.

Two texts have the same mask if they differ only in the names they quote.
-/

namespace SqlTree.Masking

inductive Place where
  | outside
  | inside
  /-- Behind a quote inside a name, which ends there unless another quote follows. -/
  | ending
  deriving DecidableEq

namespace Place

variable (quote : Char)

def next : Place → Char → Place
  | outside, c => if c = quote then inside else outside
  | inside, c => if c = quote then ending else inside
  | ending, c => if c = quote then inside else outside

/-- What the next character shows: itself outside names, and a mark where a name starts. -/
def shown : Place → Char → List (Option Char)
  | outside, c => if c = quote then [none] else [some c]
  | inside, _ => []
  | ending, c => if c = quote then [] else [some c]

def after (place : Place) (text : List Char) : Place :=
  text.foldl (next quote) place

end Place

/-- What a text shows from some place on, with a mark for each name. -/
def maskFrom (quote : Char) : Place → List Char → List (Option Char)
  | _, [] => []
  | place, c :: text => place.shown quote c ++ maskFrom quote (place.next quote c) text

/-- A text with a mark in the place of every quoted name. -/
def mask (quote : Char) (text : List Char) : List (Option Char) :=
  maskFrom quote .outside text

/-- A text in which every name that is opened is closed. -/
def Ended (quote : Char) (text : List Char) : Prop :=
  Place.outside.after quote text ≠ .inside

variable {quote : Char} {place : Place} {text first rest separator : List Char}

/-- A mask can be taken of a text piece by piece. -/
theorem maskFrom_append (place : Place) (first rest : List Char) :
    maskFrom quote place (first ++ rest) =
      maskFrom quote place first ++ maskFrom quote (place.after quote first) rest := by
  induction first generalizing place with
  | nil => rfl
  | cons c first ih =>
    rw [List.cons_append, maskFrom, maskFrom, ih, List.append_assoc]
    rfl

theorem Place.after_cons (place : Place) (c : Char) (text : List Char) :
    place.after quote (c :: text) = (place.next quote c).after quote text :=
  rfl

theorem Place.after_append (place : Place) (first rest : List Char) :
    place.after quote (first ++ rest) = (place.after quote first).after quote rest :=
  List.foldl_append

theorem Place.outside_ne_inside : Place.outside ≠ .inside :=
  nofun

/-! ## Texts without quotes -/

theorem Place.step_free {c : Char} (free : c ≠ quote) (out : place ≠ .inside) :
    place.shown quote c = [some c] ∧ place.next quote c = .outside := by
  cases place with
  | inside => exact absurd rfl out
  | outside | ending => exact ⟨if_neg free, if_neg free⟩

theorem maskFrom_free (free : quote ∉ text) (out : place ≠ .inside) :
    maskFrom quote place text = text.map some := by
  induction text generalizing place with
  | nil => rfl
  | cons c text ih =>
    rw [List.mem_cons, not_or] at free
    obtain ⟨other, free⟩ := free
    obtain ⟨shows, leads⟩ := Place.step_free (Ne.symm other) out
    rw [maskFrom, shows, leads, ih free Place.outside_ne_inside]
    rfl

/-- A text without quotes leads out of a name that has come to its end. -/
theorem Place.after_free (free : quote ∉ text) (nonempty : text ≠ []) (out : place ≠ .inside) :
    place.after quote text = .outside := by
  induction text generalizing place with
  | nil => exact absurd rfl nonempty
  | cons c text ih =>
    rw [List.mem_cons, not_or] at free
    obtain ⟨other, free⟩ := free
    rw [after_cons, (Place.step_free (Ne.symm other) out).2]
    cases text with
    | nil => rfl
    | cons d text => exact ih free (List.cons_ne_nil d text) outside_ne_inside

theorem Ended.of_free (free : quote ∉ text) : Ended quote text := by
  cases text with
  | nil => exact Place.outside_ne_inside
  | cons c text =>
    rw [Ended, Place.after_free free (List.cons_ne_nil c text) Place.outside_ne_inside]
    exact Place.outside_ne_inside

/-- Texts with something between them show what they show apart. -/
theorem mask_separated (ended : Ended quote first) (free : quote ∉ separator)
    (nonempty : separator ≠ []) (rest : List Char) :
    mask quote (first ++ separator ++ rest) =
      mask quote first ++ separator.map some ++ mask quote rest := by
  rw [mask, maskFrom_append, maskFrom_append, maskFrom_free free ended, Place.after_append,
    Place.after_free free nonempty ended]
  rfl

/-- A separator without quotes keeps two names apart that would become one. -/
theorem Ended.separated (ended : Ended quote first) (free : quote ∉ separator)
    (nonempty : separator ≠ []) (endedRest : Ended quote rest) :
    Ended quote (first ++ separator ++ rest) := by
  rw [Ended, Place.after_append, Place.after_append, Place.after_free free nonempty ended]
  exact endedRest

/-! ## Quoted names -/

/-- A name goes on behind its doubled quotes. -/
theorem maskFrom_double (name rest : List Char) :
    maskFrom quote .inside (Quoted.double quote name ++ rest) = maskFrom quote .inside rest := by
  induction name with
  | nil => rfl
  | cons c name ih =>
    by_cases same : c = quote
    · subst same
      simp [Quoted.double, maskFrom, Place.shown, Place.next, ih]
    · simp [Quoted.double, same, maskFrom, Place.shown, Place.next, ih]

theorem Place.after_double (name : List Char) :
    Place.inside.after quote (Quoted.double quote name) = .inside := by
  induction name with
  | nil => rfl
  | cons c name ih =>
    by_cases same : c = quote
    · subst same
      simp [Quoted.double, Place.after_cons, Place.next, ih]
    · simp [Quoted.double, same, Place.after_cons, Place.next, ih]

theorem Place.next_quote (out : place ≠ .inside) : place.next quote quote = .inside := by
  cases place with
  | inside => exact absurd rfl out
  | outside | ending => exact if_pos rfl

/-- A quoted name leads to its end, also if it touches another one. -/
theorem Place.after_enclose (out : place ≠ .inside) (name : List Char) :
    place.after quote (Quoted.enclose quote name) = .ending := by
  rw [Quoted.enclose, List.cons_append, after_cons, next_quote out, after_append, after_double]
  exact if_pos rfl

/-- A quoted name shows what its first quote shows. -/
theorem maskFrom_enclose (out : place ≠ .inside) (name : List Char) :
    maskFrom quote place (Quoted.enclose quote name) = place.shown quote quote := by
  rw [Quoted.enclose, List.cons_append, maskFrom, Place.next_quote out, maskFrom_double]
  exact List.append_nil _

/-- A quoted name shows one mark, whatever the name is. -/
theorem mask_enclose (name : List Char) : mask quote (Quoted.enclose quote name) = [none] := by
  rw [mask, maskFrom_enclose Place.outside_ne_inside]
  exact if_pos rfl

/-- A quoted name is closed wherever it is put. -/
theorem Ended.append_enclose (ended : Ended quote text) (name : List Char) :
    Ended quote (text ++ Quoted.enclose quote name) := by
  rw [Ended, Place.after_append, Place.after_enclose ended]
  exact nofun

theorem Ended.enclose (name : List Char) : Ended quote (Quoted.enclose quote name) := by
  have empty : Ended quote [] := Place.outside_ne_inside
  exact empty.append_enclose name

/-- What is taken away in front of a text is missing in front of what it shows. -/
theorem mask_dropWhile {blank : Char → Bool} (visible : blank quote = false) (text : List Char) :
    mask quote (text.dropWhile blank) = (mask quote text).dropWhile (·.any blank) := by
  induction text with
  | nil => rfl
  | cons c text ih =>
    cases dropped : blank c with
    | true =>
      have other : c ≠ quote := by
        rintro rfl
        exact absurd (dropped.symm.trans visible) nofun
      have shows : mask quote (c :: text) = some c :: mask quote text := by
        simp [mask, maskFrom, Place.shown, Place.next, other]
      have blank_shown : (some c).any blank = true := dropped
      rw [List.dropWhile_cons_of_pos dropped, shows, List.dropWhile_cons_of_pos blank_shown, ih]
    | false =>
      obtain ⟨first, rest, shows, stays⟩ : ∃ first rest,
          mask quote (c :: text) = first :: rest ∧ first.any blank = false := by
        by_cases same : c = quote
        · exact ⟨none, _, by rw [mask, maskFrom, Place.shown, if_pos same]; rfl, rfl⟩
        · exact ⟨some c, _, by rw [mask, maskFrom, Place.shown, if_neg same]; rfl, dropped⟩
      rw [List.dropWhile_cons_of_neg (by simp [dropped]), shows,
        List.dropWhile_cons_of_neg (by simp [stays])]

theorem Ended.dropWhile {blank : Char → Bool} (visible : blank quote = false)
    (ended : Ended quote text) : Ended quote (text.dropWhile blank) := by
  induction text with
  | nil => exact ended
  | cons c text ih =>
    cases dropped : blank c with
    | false =>
      rw [List.dropWhile_cons_of_neg (by simp [dropped])]
      exact ended
    | true =>
      have other : c ≠ quote := by
        rintro rfl
        exact absurd (dropped.symm.trans visible) nofun
      rw [List.dropWhile_cons_of_pos dropped]
      rw [Ended, Place.after_cons, (Place.step_free other Place.outside_ne_inside).2] at ended
      exact ih ended

/-! ## Counting -/

/-- A reader is inside a name exactly behind an odd number of quotes. -/
theorem Place.after_eq_inside_iff (place : Place) (text : List Char) :
    place.after quote text = .inside ↔
      (text.count quote + if place = .inside then 1 else 0) % 2 = 1 := by
  induction text generalizing place with
  | nil => cases place <;> simp [after]
  | cons c text ih =>
    rw [after_cons, ih, List.count_cons]
    by_cases same : c = quote
    · cases place <;> simp [next, same, Nat.add_assoc]
    · cases place <;> simp [next, same]

/-- Every quote leads into a name or out of it; a doubled one leads out and in again. -/
theorem ended_iff_even : Ended quote text ↔ text.count quote % 2 = 0 := by
  rw [Ended, ne_eq, Place.after_eq_inside_iff, if_neg Place.outside_ne_inside]
  omega

/-- How many placeholders a text has outside its quoted names. -/
def placeholders (quote : Char) (text : List Char) : Nat :=
  (mask quote text).count (some '?')

/-- Outside names every question mark is a placeholder. -/
theorem placeholders_append_free (ended : Ended quote first) (free : quote ∉ rest) :
    placeholders quote (first ++ rest) = placeholders quote first + rest.count '?' := by
  have counted : (rest.map some).count (some '?') = rest.count '?' :=
    List.count_map_of_injective rest some (Option.some_injective Char) '?'
  rw [placeholders, mask, maskFrom_append, maskFrom_free free ended, List.count_append, counted]
  rfl

/-- Names show no placeholders, even if two of them touch. -/
theorem placeholders_append_enclose (ended : Ended quote first) (name : List Char) :
    placeholders quote (first ++ Quoted.enclose quote name) = placeholders quote first := by
  have nothing (place : Place) : (place.shown quote quote).count (some '?') = 0 := by
    cases place <;> simp [Place.shown]
  rw [placeholders, mask, maskFrom_append, List.count_append, maskFrom_enclose ended, nothing]
  rfl

/-! ## Texts with the same mask -/

/-- Texts that differ only in the names they quote, each of which is closed. -/
structure Same (quote : Char) (text text' : List Char) : Prop where
  same : mask quote text = mask quote text'
  ended : Ended quote text
  ended' : Ended quote text'

namespace Same

variable {text' first' rest' : List Char}

theorem of_free (free : quote ∉ text) : Same quote text text :=
  ⟨rfl, .of_free free, .of_free free⟩

theorem separated (first_same : Same quote first first') (free : quote ∉ separator)
    (nonempty : separator ≠ []) (rest_same : Same quote rest rest') :
    Same quote (first ++ separator ++ rest) (first' ++ separator ++ rest') where
  same := by
    rw [mask_separated first_same.ended free nonempty,
      mask_separated first_same.ended' free nonempty, first_same.same, rest_same.same]
  ended := first_same.ended.separated free nonempty rest_same.ended
  ended' := first_same.ended'.separated free nonempty rest_same.ended'

end Same

/-! ## Trees -/

theorem quote_not_mem {flavor : Flavor} (simple : Grammar.plain text = true) :
    flavor.quote ∉ text := by
  intro member
  have special := List.all_eq_true.mp simple _ member
  cases flavor <;> simp [Flavor.quote] at special

end SqlTree.Masking

namespace SqlTree

open Masking

/-- Names in quotes are free, and nothing else is. -/
def Likeness.names : Likeness :=
  { equal with name := fun _ _ => True }

theorem Likeness.names_reflexive : names.Reflexive :=
  { equal_reflexive with name := fun _ => trivial }

theorem separated_same (flavor : Flavor) :
    Grammar.Separated (flavor.quote ∉ ·) (Same flavor.quote) where
  plain := quote_not_mem
  opening := by cases flavor <;> decide
  closing := by cases flavor <;> decide
  append first rest := List.not_mem_append first rest
  bare := .of_free
  joined free nonempty first_same rest_same := first_same.separated free nonempty rest_same

/-- Texts that differ in quoted names only stay so, however the grammar puts them together. -/
theorem parallel_names (flavor : Flavor) (options : FormatOptions) :
    Grammar.Parallel .names flavor flavor options.layout options.layout (flavor.quote ∉ ·)
      (Same flavor.quote) := by
  refine (separated_same flavor).parallel options (fun _ => ?_) ?_ (congrArg Foreign.kind)
  · exact ⟨(mask_enclose _).trans (mask_enclose _).symm, .enclose _, .enclose _⟩
  · rintro page _ rfl
    rw [Grammar.pageClause]
    split
    · exact .cons (.of_free (quote_not_mem (Grammar.plain_page flavor))) .nil
    · exact .nil

end SqlTree
