import SqlTree.Proofs.Text.Brackets
import SqlTree.Proofs.Text.Masking

/-!
# Balanced brackets

A text is balanced if no prefix of it has more closing than opening brackets and the whole has as
many of one as of the other, where brackets inside quoted names do not count. This is said by
counting, without a reader that keeps a depth. The two agree: a closed text is one that is balanced
and in which every name that is opened is closed.
-/

namespace SqlTree.Brackets

open Masking

/-- How often a character stands in a text outside its names, for a reader that comes from some
place. -/
def countFrom (quote : Char) (place : Masking.Place) (c : Char) (text : List Char) : Nat :=
  (maskFrom quote place text).count (some c)

def opened (quote : Char) (text : List Char) : Nat :=
  countFrom quote .outside '(' text

def closed (quote : Char) (text : List Char) : Nat :=
  countFrom quote .outside ')' text

/-- A text whose brackets outside quoted names belong together. -/
structure Balanced (quote : Char) (text : List Char) : Prop where
  /-- At no point have more brackets been closed than opened. -/
  covered : ∀ front, front <+: text → closed quote front ≤ opened quote front
  /-- In the end all of them are closed. -/
  settled : opened quote text = closed quote text

variable {quote : Char} {text : List Char}

theorem countFrom_cons (place : Masking.Place) (bracket c : Char) (text : List Char) :
    countFrom quote place bracket (c :: text) =
      (place.shown quote c).count (some bracket) +
        countFrom quote (place.next quote c) bracket text :=
  List.count_append

/-- A character opens a bracket, or closes one, or neither. -/
theorem count_shown_cases (place : Masking.Place) (c : Char) :
    (place.shown quote c).count (some '(') = 0 ∨ (place.shown quote c).count (some ')') = 0 := by
  by_cases opening : c = '('
  · subst opening
    right
    cases place <;> simp [Place.shown] <;> split <;> simp
  · left
    cases place <;> simp [Place.shown] <;> split <;> simp [opening]

/-- Outside names a reader that keeps a depth sees what a reader that counts sees. -/
theorem step_shown (depth : Nat) {c : Char} (other : c ≠ quote) :
    Place.step quote { depth } c =
      if [some c].count (some ')') ≤ depth then
        some { depth := depth + [some c].count (some '(') - [some c].count (some ')') }
      else none := by
  by_cases opening : c = '('
  · subst opening
    simp [Place.step, other]
  · by_cases closing : c = ')'
    · subst closing
      cases depth <;> simp [Place.step, other]
    · simp [Place.step, other, opening, closing]

/-- A reader that keeps a depth does what a reader that counts does. -/
theorem step_eq (place : Masking.Place) (depth : Nat) (c : Char) :
    Place.step quote ⟨place = .inside, depth⟩ c =
      if (place.shown quote c).count (some ')') ≤ depth then
        some ⟨place.next quote c = .inside,
          depth + (place.shown quote c).count (some '(')
            - (place.shown quote c).count (some ')')⟩
      else none := by
  by_cases isQuote : c = quote
  · cases place <;> simp [Place.step, Place.shown, Place.next, isQuote]
  · cases place with
    | inside => simp [Place.step, Place.shown, Place.next, isQuote]
    | outside | ending =>
      simp only [Place.shown, Place.next, if_neg isQuote]
      exact step_shown depth isQuote

theorem forall_prefix_cons {P : List Char → Prop} {c : Char} :
    (∀ front, front <+: c :: text → P front) ↔
      P [] ∧ ∀ front, front <+: text → P (c :: front) := by
  constructor
  · intro each
    refine ⟨each [] List.nil_prefix, fun front inside => ?_⟩
    exact each _ (List.cons_prefix_cons.mpr ⟨rfl, inside⟩)
  · rintro ⟨nothing, each⟩ front inside
    obtain rfl | ⟨rest, rfl, behind⟩ := List.prefix_cons_iff.mp inside
    · exact nothing
    · exact each rest behind

/-- Where a text leads a reader that keeps a depth, and that it leads anywhere, can be counted. -/
theorem walk_eq_some_iff (place : Masking.Place) (depth : Nat) (text : List Char) (there : Place) :
    walk quote ⟨place = .inside, depth⟩ text = some there ↔
      (∀ front, front <+: text →
          countFrom quote place ')' front ≤ depth + countFrom quote place '(' front) ∧
        there.quoted = decide (place.after quote text = .inside) ∧
        there.depth + countFrom quote place ')' text =
          depth + countFrom quote place '(' text := by
  induction text generalizing place depth with
  | nil =>
    have nothing (bracket : Char) : countFrom quote place bracket [] = 0 := rfl
    simp only [walk, List.prefix_nil, forall_eq, nothing, Option.some.injEq, Place.after,
      List.foldl_nil]
    constructor
    · rintro rfl
      exact ⟨Nat.zero_le _, rfl, rfl⟩
    · rintro ⟨-, quoted, level⟩
      obtain ⟨_, _⟩ := there
      exact congr (congrArg Place.mk quoted.symm) level.symm
  | cons c text ih =>
    rw [walk, step_eq, forall_prefix_cons, Place.after_cons]
    simp only [countFrom_cons]
    by_cases fits : (place.shown quote c).count (some ')') ≤ depth
    · rw [if_pos fits, Option.bind_some, ih]
      refine and_congr ⟨fun each => ⟨Nat.zero_le _, fun front inside => ?_⟩,
        fun each front inside => ?_⟩ (and_congr Iff.rfl ?_)
      · have before := each front inside
        omega
      · have before := each.2 front inside
        omega
      · omega
    · rw [if_neg fits, Option.bind_none]
      constructor
      · intro found
        cases found
      · intro counted
        -- One bracket too many is closed behind the first character already.
        have first := counted.1.2 [] List.nil_prefix
        have nothing (bracket : Char) : countFrom quote (place.next quote c) bracket [] = 0 := rfl
        rw [nothing, nothing] at first
        have single : (place.shown quote c).count (some '(') = 0 ∨ _ := count_shown_cases place c
        omega

/-- A reader that keeps a depth finds out whether a text is balanced. -/
theorem balanced_iff :
    Balanced quote text ↔ (walk quote {} text).any (fun there => there.depth == 0) = true := by
  constructor
  · rintro ⟨covered, settled⟩
    have walked : walk quote {} text = some ⟨Place.outside.after quote text = .inside, 0⟩ := by
      refine (walk_eq_some_iff .outside 0 text _).mpr ⟨fun front inside => ?_, rfl, ?_⟩
      · exact Nat.le_add_left_of_le (covered front inside)
      · exact congrArg (0 + ·) settled.symm
    rw [walked]
    rfl
  · intro found
    obtain ⟨there, walked, level⟩ := (Option.any_eq_true _ _).mp found
    obtain ⟨covered, -, settled⟩ := (walk_eq_some_iff .outside 0 text there).mp walked
    rw [eq_of_beq level] at settled
    simp only [Nat.zero_add] at covered settled
    exact ⟨covered, settled.symm⟩

instance (quote : Char) (text : List Char) : Decidable (Balanced quote text) :=
  decidable_of_iff _ balanced_iff.symm

/-- A reader gets through a text and back to its depth if no prefix closes too many brackets, all
that are opened are closed, and so are all names. -/
theorem walk_outside_iff (depth : Nat) :
    walk quote { depth } text = some { depth } ↔
      (∀ front, front <+: text → closed quote front ≤ depth + opened quote front) ∧
        Ended quote text ∧ opened quote text = closed quote text := by
  have counted : walk quote { depth } text = some { depth } ↔ _ :=
    walk_eq_some_iff .outside depth text { depth }
  refine counted.trans (and_congr Iff.rfl (and_congr ?_ ?_))
  · rw [Ended, eq_comm, decide_eq_false_iff_not]
  · rw [Nat.add_left_cancel_iff, eq_comm]
    rfl

/-- A text is closed if it is balanced and its names are. -/
theorem closed_iff : Closed quote text ↔ Ended quote text ∧ Balanced quote text := by
  constructor
  · intro closed
    obtain ⟨covered, ended, settled⟩ := (walk_outside_iff 0).mp (closed 0)
    simp only [Nat.zero_add] at covered
    exact ⟨ended, covered, settled⟩
  · rintro ⟨ended, balanced⟩ depth
    refine (walk_outside_iff depth).mpr ⟨fun front inside => ?_, ended, balanced.settled⟩
    exact Nat.le_add_left_of_le (balanced.covered front inside)

/-- Taking away blanks in front of a text leaves it closed. -/
theorem Closed.dropWhile {blank : Char → Bool} (visible : [quote, '(', ')'].any blank = false)
    (closed : Closed quote text) : Closed quote (text.dropWhile blank) := by
  induction text with
  | nil => exact closed
  | cons c text ih =>
    cases dropped : blank c with
    | false =>
      rw [List.dropWhile_cons_of_neg (by simp [dropped])]
      exact closed
    | true =>
      rw [List.dropWhile_cons_of_pos dropped]
      refine ih fun depth => ?_
      have passed : Place.step quote { depth } c = some { depth } := by
        have other : c ≠ quote ∧ c ≠ '(' ∧ c ≠ ')' := by
          simp only [List.any_cons, List.any_nil, Bool.or_false, Bool.or_eq_false_iff] at visible
          refine ⟨?_, ?_, ?_⟩ <;> rintro rfl <;> simp [dropped] at visible
        simp [Place.step, other]
      have whole := closed depth
      rwa [walk, passed] at whole

end SqlTree.Brackets
