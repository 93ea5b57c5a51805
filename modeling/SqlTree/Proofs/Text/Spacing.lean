import SqlTree.Proofs.Text.Masking
import SqlTree.Text

/-!
# White space outside names

Blanks and line breaks that stand outside quoted names only separate words, and next to the inner
side of a bracket they do not even do that. `normal` leaves one blank of each run of them, and none
behind an opening or in front of a closing bracket. It goes through the text once, from left to
right, and holds a blank back until it sees what follows.

Two texts have the same spacing if a reader cannot tell them apart in this way, wherever it comes
from. Layouts differ in spacing only: their gaps are never empty, and their edges touch brackets.
-/

namespace SqlTree.Spacing

open Masking

inductive Role where
  | white
  | opening
  | closing
  | other
  deriving DecidableEq

/-- Inside a name no character stands for anything but itself. -/
def role (place : Place) (c : Char) : Role :=
  if place = .inside then .other
  else if c = ' ' ∨ c = '\n' then .white
  else if c = '(' then .opening
  else if c = ')' then .closing
  else .other

inductive Mode where
  | solid
  /-- An opening bracket, and perhaps white space behind it. -/
  | opened
  /-- White space for which a blank may be due. -/
  | pending
  deriving DecidableEq

namespace Mode

def next : Mode → Role → Mode
  | opened, .white => opened
  | _, .white => pending
  | _, .opening => opened
  | _, _ => solid

def due : Mode → Role → List Char
  | pending, .opening => [' ']
  | pending, .other => [' ']
  | _, _ => []

def rest : Mode → List Char
  | pending => [' ']
  | _ => []

theorem next_white_white (mode : Mode) : (mode.next .white).next .white = mode.next .white := by
  cases mode <;> rfl

/-- Behind anything but white space it does not matter what stood in front of it. -/
theorem next_of_ne_white {role : Role} (solid : role ≠ .white) (mode mode' : Mode) :
    mode.next role = mode'.next role := by
  cases role with
  | white => exact absurd rfl solid
  | _ => cases mode <;> cases mode' <;> rfl

end Mode

structure Cursor where
  place : Place
  mode : Mode
  deriving DecidableEq

namespace Cursor

variable (quote : Char)

def next (cursor : Cursor) (c : Char) : Cursor :=
  ⟨cursor.place.next quote c, cursor.mode.next (role cursor.place c)⟩

def shown (cursor : Cursor) (c : Char) : List Char :=
  if role cursor.place c = .white then [] else cursor.mode.due (role cursor.place c) ++ [c]

def after (cursor : Cursor) (text : List Char) : Cursor :=
  text.foldl (next quote) cursor

def emitted (cursor : Cursor) : List Char → List Char
  | [] => []
  | c :: text => cursor.shown c ++ (cursor.next quote c).emitted text

/-- What is left of a text that ends. -/
def normal (cursor : Cursor) (text : List Char) : List Char :=
  cursor.emitted quote text ++ (cursor.after quote text).mode.rest

end Cursor

/-- A text with one blank for each run of white space outside its names, and none on the inner sides
of brackets. -/
def normal (quote : Char) (text : List Char) : List Char :=
  Cursor.normal quote ⟨.outside, .solid⟩ text

variable {quote : Char} {text : List Char}

namespace Cursor

theorem after_cons (cursor : Cursor) (c : Char) (text : List Char) :
    cursor.after quote (c :: text) = (cursor.next quote c).after quote text :=
  rfl

theorem after_append (cursor : Cursor) (first rest : List Char) :
    cursor.after quote (first ++ rest) = (cursor.after quote first).after quote rest :=
  List.foldl_append

theorem emitted_append (cursor : Cursor) (first rest : List Char) :
    cursor.emitted quote (first ++ rest) =
      cursor.emitted quote first ++ (cursor.after quote first).emitted quote rest := by
  induction first generalizing cursor with
  | nil => rfl
  | cons c first ih =>
    rw [List.cons_append, emitted, emitted, ih, List.append_assoc]
    rfl

/-- White space does not change whether a reader is inside a name. -/
theorem place_after (cursor : Cursor) (text : List Char) :
    (cursor.after quote text).place = cursor.place.after quote text := by
  induction text generalizing cursor with
  | nil => rfl
  | cons c text ih => exact ih (cursor.next quote c)

theorem shown_white {cursor : Cursor} {c : Char} (white : role cursor.place c = .white) :
    cursor.shown c = [] :=
  if_pos white

/-- A blank that is due is shown in front of the next character that is none. -/
theorem shown_of_ne_white {cursor : Cursor} {c : Char} (solid : role cursor.place c ≠ .white) :
    cursor.shown c = cursor.mode.due (role cursor.place c) ++ [c] :=
  if_neg solid

theorem normal_cons (cursor : Cursor) (c : Char) (text : List Char) :
    cursor.normal quote (c :: text) = cursor.shown c ++ (cursor.next quote c).normal quote text :=
  List.append_assoc ..

end Cursor

/-! ## White space and brackets -/

def White (text : List Char) : Prop :=
  ∀ c ∈ text, c = ' ' ∨ c = '\n'

/-- A quote that has no other role. -/
def Proper (quote : Char) : Prop :=
  quote ∉ [' ', '\n', '(', ')']

section Roles

variable {place : Place} {c : Char}

theorem role_white (out : place ≠ .inside) (white : c = ' ' ∨ c = '\n') :
    role place c = .white := by
  rw [role, if_neg out, if_pos white]

theorem role_opening (out : place ≠ .inside) : role place '(' = .opening := by
  rw [role, if_neg out]
  rfl

theorem role_closing (out : place ≠ .inside) : role place ')' = .closing := by
  rw [role, if_neg out]
  rfl

theorem eq_of_role_white (white : role place c = .white) :
    place ≠ .inside ∧ (c = ' ' ∨ c = '\n') := by
  grind [role]

theorem eq_of_role_opening (opening : role place c = .opening) : place ≠ .inside ∧ c = '(' := by
  grind [role]

theorem eq_of_role_closing (closing : role place c = .closing) : place ≠ .inside ∧ c = ')' := by
  grind [role]

end Roles

namespace Proper

variable (proper : Proper quote)

include proper

theorem not_white : ¬ (quote = ' ' ∨ quote = '\n') := by
  intro white
  simp only [Proper, List.mem_cons, not_or] at proper
  rcases white with same | same
  · exact proper.1 same
  · exact proper.2.1 same

theorem not_mem_of_white (white : White text) : quote ∉ text :=
  fun member => proper.not_white (white quote member)

theorem opening_ne : '(' ≠ quote := by
  rintro rfl
  exact proper (by decide)

theorem closing_ne : ')' ≠ quote := by
  rintro rfl
  exact proper (by decide)

theorem ne_of_white {place : Place} {c : Char} (white : role place c = .white) : c ≠ quote := by
  rintro rfl
  exact proper.not_white (eq_of_role_white white).2

theorem next_white (cursor : Cursor) {c : Char} (white : role cursor.place c = .white) :
    cursor.next quote c = ⟨.outside, cursor.mode.next .white⟩ := by
  have out := (eq_of_role_white white).1
  rw [Cursor.next, white, (Place.step_free (proper.ne_of_white white) out).2]

/-- White space shows nothing by itself. -/
theorem white (cursor : Cursor) (out : cursor.place ≠ .inside) (white : White text) :
    cursor.emitted quote text = [] ∧
      (text ≠ [] → cursor.after quote text = ⟨.outside, cursor.mode.next .white⟩) := by
  induction text generalizing cursor with
  | nil => exact ⟨rfl, absurd rfl⟩
  | cons c text ih =>
    obtain ⟨first, rest⟩ := List.forall_mem_cons.mp white
    have white := role_white out first
    obtain ⟨quiet, further⟩ := ih ⟨.outside, cursor.mode.next .white⟩ Place.outside_ne_inside rest
    rw [Cursor.emitted, Cursor.shown_white white, Cursor.after_cons, proper.next_white cursor white]
    refine ⟨quiet, fun _ => ?_⟩
    cases text with
    | nil => rfl
    | cons d text => rw [further (List.cons_ne_nil d text), Mode.next_white_white]

/-- White space behind an opening bracket leaves no trace. -/
theorem opening (cursor : Cursor) (out : cursor.place ≠ .inside) (white : White text) :
    cursor.emitted quote ('(' :: text) = cursor.mode.due .opening ++ ['('] ∧
      cursor.after quote ('(' :: text) = ⟨.outside, .opened⟩ := by
  have led : cursor.next quote '(' = ⟨.outside, .opened⟩ := by
    rw [Cursor.next, role_opening out, (Place.step_free proper.opening_ne out).2]
    cases cursor.mode <;> rfl
  have shown : cursor.shown '(' = cursor.mode.due .opening ++ ['('] := by
    rw [Cursor.shown, role_opening out]
    rfl
  obtain ⟨quiet, further⟩ := proper.white ⟨.outside, .opened⟩ Place.outside_ne_inside white
  rw [Cursor.emitted, Cursor.after_cons, led, shown, quiet, List.append_nil]
  refine ⟨rfl, ?_⟩
  cases text with
  | nil => rfl
  | cons c text => exact further (List.cons_ne_nil c text)

/-- White space in front of a closing bracket leaves no trace. -/
theorem closing (cursor : Cursor) (out : cursor.place ≠ .inside) (white : White text) :
    cursor.emitted quote (text ++ [')']) = [')'] ∧
      cursor.after quote (text ++ [')']) = ⟨.outside, .solid⟩ := by
  obtain ⟨quiet, -⟩ := proper.white cursor out white
  have still : (cursor.after quote text).place ≠ .inside := by
    rw [Cursor.place_after]
    cases text with
    | nil => exact out
    | cons c text =>
      rw [Place.after_free (proper.not_mem_of_white white) (List.cons_ne_nil c text) out]
      exact Place.outside_ne_inside
  have shown : (cursor.after quote text).shown ')' = [')'] := by
    rw [Cursor.shown, role_closing still]
    cases (cursor.after quote text).mode <;> rfl
  have led : (cursor.after quote text).next quote ')' = ⟨.outside, .solid⟩ := by
    rw [Cursor.next, role_closing still, (Place.step_free proper.closing_ne still).2]
    cases (cursor.after quote text).mode <;> rfl
  rw [Cursor.emitted_append, Cursor.after_append, quiet, Cursor.after_cons, led, Cursor.emitted,
    shown]
  exact ⟨rfl, rfl⟩

end Proper

/-! ## Texts with the same spacing -/

/-- Texts that leave a reader in the same state, with the same left of them, wherever outside a name
it comes from. -/
structure Same (quote : Char) (text text' : List Char) : Prop where
  emitted : ∀ cursor : Cursor, cursor.place ≠ .inside →
    cursor.emitted quote text = cursor.emitted quote text'
  after : ∀ cursor : Cursor, cursor.place ≠ .inside →
    cursor.after quote text = cursor.after quote text'
  ended : ∀ place : Place, place ≠ .inside → place.after quote text ≠ .inside

namespace Same

variable {text' first first' rest rest' left left' right right' : List Char}

/-- Texts that are the same to every reader have the same normal form. -/
theorem normal_eq (same : Same quote text text') : normal quote text = normal quote text' := by
  have out : Place.outside ≠ .inside := Place.outside_ne_inside
  rw [normal, normal, Cursor.normal, Cursor.normal, same.emitted _ out, same.after _ out]

theorem refl (ended : ∀ place : Place, place ≠ .inside → place.after quote text ≠ .inside) :
    Same quote text text :=
  ⟨fun _ _ => rfl, fun _ _ => rfl, ended⟩

theorem of_free (free : quote ∉ text) : Same quote text text := by
  refine refl fun place out => ?_
  cases text with
  | nil => exact out
  | cons c text =>
    rw [Place.after_free free (List.cons_ne_nil c text) out]
    exact Place.outside_ne_inside

theorem enclose (name : List Char) :
    Same quote (Quoted.enclose quote name) (Quoted.enclose quote name) := by
  refine refl fun place out => ?_
  rw [Place.after_enclose out]
  exact nofun

theorem append (one : Same quote first first') (two : Same quote rest rest') :
    Same quote (first ++ rest) (first' ++ rest') := by
  have inner (cursor : Cursor) (out : cursor.place ≠ .inside) :
      (cursor.after quote first).place ≠ .inside := by
    rw [cursor.place_after]
    exact one.ended _ out
  constructor
  · intro cursor out
    rw [cursor.emitted_append, cursor.emitted_append, one.emitted cursor out,
      ← one.after cursor out, two.emitted _ (inner cursor out)]
  · intro cursor out
    rw [cursor.after_append, cursor.after_append, ← one.after cursor out,
      two.after _ (inner cursor out)]
  · intro place out
    rw [Place.after_append]
    exact two.ended _ (one.ended _ out)

section Brackets

variable (proper : Proper quote)

include proper

/-- Gaps of different widths. -/
theorem gap (white : White text) (white' : White text') (nonempty : text ≠ [])
    (nonempty' : text' ≠ []) : Same quote text text' where
  emitted cursor out := by
    rw [(proper.white cursor out white).1, (proper.white cursor out white').1]
  after cursor out := by
    rw [(proper.white cursor out white).2 nonempty, (proper.white cursor out white').2 nonempty']
  ended place out := by
    rw [Place.after_free (proper.not_mem_of_white white) nonempty out]
    exact Place.outside_ne_inside

theorem opening (white : White left) (white' : White left') :
    Same quote ('(' :: left) ('(' :: left') where
  emitted cursor out := by
    rw [(proper.opening cursor out white).1, (proper.opening cursor out white').1]
  after cursor out := by
    rw [(proper.opening cursor out white).2, (proper.opening cursor out white').2]
  ended place out := by
    have led := congrArg Cursor.place (proper.opening ⟨place, .solid⟩ out white).2
    rw [Cursor.place_after] at led
    rw [led]
    exact Place.outside_ne_inside

theorem closing (white : White right) (white' : White right') :
    Same quote (right ++ [')']) (right' ++ [')']) where
  emitted cursor out := by
    rw [(proper.closing cursor out white).1, (proper.closing cursor out white').1]
  after cursor out := by
    rw [(proper.closing cursor out white).2, (proper.closing cursor out white').2]
  ended place out := by
    have led := congrArg Cursor.place (proper.closing ⟨place, .solid⟩ out white).2
    rw [Cursor.place_after] at led
    rw [led]
    exact Place.outside_ne_inside

/-- Brackets around a text, whatever white space they have on their inner sides. -/
theorem grouped (whiteLeft : White left) (whiteLeft' : White left') (whiteRight : White right)
    (whiteRight' : White right') (same : Same quote text text') :
    Same quote ('(' :: left ++ text ++ right ++ [')'])
      ('(' :: left' ++ text' ++ right' ++ [')']) := by
  have opened := (opening proper whiteLeft whiteLeft').append same
  have closed := opened.append (closing proper whiteRight whiteRight')
  rwa [← List.append_assoc, ← List.append_assoc] at closed

theorem bracketed (same : Same quote text text') :
    Same quote (Grammar.bracketed text) (Grammar.bracketed text') := by
  have nothing : White [] := fun c member => absurd member List.not_mem_nil
  have grouped := grouped proper nothing nothing nothing nothing same
  simpa [Grammar.bracketed] using grouped

end Brackets

end Same

/-! ## Blanks in front -/

theorem Mode.isBlank_due (mode : Mode) (role : Role) :
    ∀ c ∈ mode.due role, Blank.isBlank c = true := by
  have due : mode.due role = [] ∨ mode.due role = [' '] := by
    cases mode with
    | pending => cases role <;> simp [due]
    | solid | opened => exact .inl rfl
  rcases due with nothing | blank
  · rw [nothing]
    exact fun c member => absurd member List.not_mem_nil
  · rw [blank]
    exact List.forall_mem_singleton.mpr rfl

/-- Behind blanks at the start of a text no bracket is open. -/
theorem Mode.next_ne_opened {mode : Mode} (begun : mode ≠ .opened) {place : Place} {c : Char}
    (blank : Blank.isBlank c = true) : mode.next (role place c) ≠ .opened := by
  cases kind : role place c with
  | opening =>
    obtain ⟨-, rfl⟩ := eq_of_role_opening kind
    exact absurd blank (by decide)
  | white =>
    cases mode with
    | opened => exact absurd rfl begun
    | solid | pending => exact nofun
  | closing | other => cases mode <;> exact nofun

/-- Blanks that are cut off in front of a text are missing in front of what is left of it. -/
theorem Cursor.dropWhile_normal (visible : Blank.isBlank quote = false) (mode : Mode)
    (begun : mode ≠ .opened) (text : List Char) :
    (Cursor.normal quote ⟨.outside, mode⟩ text).dropWhile Blank.isBlank =
      Spacing.normal quote (text.dropWhile Blank.isBlank) := by
  induction text generalizing mode with
  | nil =>
    cases mode with
    | opened => exact absurd rfl begun
    | solid => rfl
    | pending => rfl
  | cons c text ih =>
    rw [normal_cons]
    cases blank : Blank.isBlank c with
    | true =>
      have free : c ≠ quote := by
        rintro rfl
        exact absurd (blank.symm.trans visible) nofun
      have led : (Cursor.mk .outside mode).next quote c = ⟨.outside, mode.next (role .outside c)⟩ :=
        congrArg (Cursor.mk · _) (Place.step_free free Place.outside_ne_inside).2
      have shown : ∀ d ∈ (Cursor.mk .outside mode).shown c, Blank.isBlank d = true := by
        by_cases white : role .outside c = .white
        · rw [shown_white white]
          exact fun d member => absurd member List.not_mem_nil
        · rw [shown_of_ne_white white]
          exact List.forall_mem_append.mpr
            ⟨mode.isBlank_due _, List.forall_mem_singleton.mpr blank⟩
      rw [List.dropWhile_append_of_pos shown, led, List.dropWhile_cons_of_pos blank]
      exact ih _ (Mode.next_ne_opened begun blank)
    | false =>
      -- What the reader has seen before does not matter behind a character that stays.
      have solid : role .outside c ≠ .white := by
        intro white
        rcases (eq_of_role_white white).2 with rfl | rfl <;> exact absurd blank (by decide)
      have led :
          (Cursor.mk .outside mode).next quote c = (Cursor.mk .outside .solid).next quote c :=
        congrArg (Cursor.mk _) (Mode.next_of_ne_white solid _ _)
      have nothing : Mode.solid.due (role .outside c) = [] := by
        cases role .outside c <;> rfl
      rw [shown_of_ne_white solid, List.append_assoc, List.dropWhile_append_of_pos
        (mode.isBlank_due _), List.dropWhile_cons_of_neg (by simp [blank]), led,
        List.cons_append, List.dropWhile_cons_of_neg (by simp [blank]), Spacing.normal, normal_cons,
        shown_of_ne_white solid, nothing]
      rfl

/-- White space in front of a text is left out in either order. -/
theorem normal_dropWhile (visible : Blank.isBlank quote = false) (text : List Char) :
    normal quote (text.dropWhile Blank.isBlank) =
      (normal quote text).dropWhile Blank.isBlank :=
  (Cursor.dropWhile_normal visible .solid nofun text).symm

/-! ## Words -/

/-- A word that has come to its end, unless it is empty. -/
def finished (word : List Char) : List (List Char) :=
  if word.isEmpty then [] else [word]

/-- The words of a text from some place on, when a word has been begun. -/
def wordsFrom (quote : Char) : Place → List Char → List Char → List (List Char)
  | _, word, [] => finished word
  | place, word, c :: text =>
    match role place c with
    | .white => finished word ++ wordsFrom quote (place.next quote c) [] text
    | .other => wordsFrom quote (place.next quote c) (word ++ [c]) text
    | _ => finished word ++ [c] :: wordsFrom quote (place.next quote c) [] text

/-- What white space and brackets outside names divide a text into, and the brackets. A name is
never divided. -/
def words (quote : Char) (text : List Char) : List (List Char) :=
  wordsFrom quote .outside [] text

section Words

variable (proper : Proper quote)

include proper

theorem wordsFrom_white {place : Place} {c : Char} (white : role place c = .white)
    (word text : List Char) :
    wordsFrom quote place word (c :: text) =
      finished word ++ wordsFrom quote .outside [] text := by
  have out := (eq_of_role_white white).1
  rw [wordsFrom, white, (Place.step_free (proper.ne_of_white white) out).2]

theorem wordsFrom_closing {place : Place} (out : place ≠ .inside) (word text : List Char) :
    wordsFrom quote place word (')' :: text) =
      finished word ++ wordsFrom quote .outside [] (')' :: text) := by
  have other := proper.closing_ne
  rw [wordsFrom, wordsFrom, role_closing out, role_closing Place.outside_ne_inside,
    (Place.step_free other out).2, (Place.step_free other Place.outside_ne_inside).2]
  rfl

/-- A character that stays leads to the same words in the text and in what is left of it, when what
follows does: behind an opening bracket, and behind anything else. -/
theorem wordsFrom_kept {place : Place} {c : Char} {text : List Char}
    (solid : role place c ≠ .white) (mode : Mode) (word : List Char)
    (opened : wordsFrom quote .outside [] (Cursor.normal quote ⟨.outside, .opened⟩ text) =
      wordsFrom quote .outside [] text)
    (other : ∀ place word, wordsFrom quote place word (Cursor.normal quote ⟨place, .solid⟩ text) =
      wordsFrom quote place word text) :
    wordsFrom quote place word (c :: ((Cursor.mk place mode).next quote c).normal quote text) =
      wordsFrom quote place word (c :: text) := by
  have led : (Cursor.mk place mode).next quote c =
      ⟨place.next quote c, mode.next (role place c)⟩ := rfl
  rw [led, wordsFrom, wordsFrom]
  cases kind : role place c with
  | white => exact absurd kind solid
  | opening =>
    obtain ⟨out, rfl⟩ := eq_of_role_opening kind
    have behind : mode.next .opening = .opened := by cases mode <;> rfl
    rw [behind, (Place.step_free proper.opening_ne out).2]
    exact congrArg (fun words => finished word ++ ['('] :: words) opened
  | closing =>
    have behind : mode.next .closing = .solid := by cases mode <;> rfl
    rw [behind]
    exact congrArg (fun words => finished word ++ [c] :: words) (other _ _)
  | other =>
    have behind : mode.next .other = .solid := by cases mode <;> rfl
    rw [behind]
    exact other _ _

/-- What is left of a text has the words of the text. Where a blank is held back, the word in front
of it is finished in the text, and not yet in what is left of it. -/
theorem wordsFrom_normal (text : List Char) :
    (∀ place word, wordsFrom quote place word (Cursor.normal quote ⟨place, .solid⟩ text) =
        wordsFrom quote place word text) ∧
      wordsFrom quote .outside [] (Cursor.normal quote ⟨.outside, .opened⟩ text) =
        wordsFrom quote .outside [] text ∧
      ∀ place word, place ≠ .inside →
        wordsFrom quote place word (Cursor.normal quote ⟨.outside, .pending⟩ text) =
          finished word ++ wordsFrom quote .outside [] text := by
  induction text with
  | nil =>
    refine ⟨fun _ _ => rfl, rfl, fun place word out => ?_⟩
    exact wordsFrom_white proper (role_white out (.inl rfl)) word []
  | cons c text ih =>
    obtain ⟨ihSolid, ihOpened, ihPending⟩ := ih
    have skipped (place : Place) (mode : Mode) (white : role place c = .white) :
        Cursor.normal quote ⟨place, mode⟩ (c :: text) =
          Cursor.normal quote ⟨.outside, mode.next .white⟩ text := by
      rw [Cursor.normal_cons, Cursor.shown_white white, proper.next_white ⟨place, mode⟩ white]
      rfl
    have stays (place : Place) (mode : Mode) (solid : role place c ≠ .white) :
        Cursor.normal quote ⟨place, mode⟩ (c :: text) =
          mode.due (role place c) ++
            c :: ((Cursor.mk place mode).next quote c).normal quote text := by
      rw [Cursor.normal_cons, Cursor.shown_of_ne_white solid, List.append_assoc]
      rfl
    have kept {place : Place} (solid : role place c ≠ .white) (mode : Mode) (word : List Char) :=
      wordsFrom_kept proper solid mode word ihOpened ihSolid
    refine ⟨fun place word => ?_, ?_, fun place word out => ?_⟩
    · by_cases white : role place c = .white
      · rw [skipped place .solid white, wordsFrom_white proper white]
        exact ihPending place word (eq_of_role_white white).1
      · rw [stays place .solid white]
        exact kept white .solid word
    · by_cases white : role .outside c = .white
      · rw [skipped .outside .opened white, wordsFrom_white proper white]
        exact ihOpened
      · rw [stays .outside .opened white]
        exact kept white .opened []
    · by_cases white : role .outside c = .white
      · rw [skipped .outside .pending white, wordsFrom_white proper white]
        exact ihPending place word out
      · rw [stays .outside .pending white, ← kept white .pending []]
        cases kind : role .outside c with
        | white => exact absurd kind white
        | closing =>
          obtain ⟨-, rfl⟩ := eq_of_role_closing kind
          exact wordsFrom_closing proper out word _
        | opening | other => exact wordsFrom_white proper (role_white out (.inl rfl)) word _

/-- Normalising the white space of a text changes none of its words. -/
theorem words_normal (text : List Char) : words quote (normal quote text) = words quote text :=
  (wordsFrom_normal proper text).1 .outside []

end Words

-- The blanks and the bracket inside the name stay as they are.
example : normal '"' "f (\n  a,  b )  \"x  ( y\"".toList = "f (a, b) \"x  ( y\"".toList := rfl

/-! ## Layouts -/

theorem white_lines (width : Nat) : White ('\n' :: List.replicate width ' ') := by
  refine List.forall_mem_cons.mpr ⟨.inr rfl, fun c member => .inl ?_⟩
  exact List.eq_of_mem_replicate member

/-- The white space between clauses is blanks and line breaks only. -/
theorem white_gap (options : FormatOptions) (depth : Nat) : White (options.layout.gap depth) := by
  rw [FormatOptions.layout]
  split
  · exact white_lines _
  · exact List.forall_mem_singleton.mpr (.inl rfl)

theorem white_edge (options : FormatOptions) (depth : Nat) :
    White (options.layout.edge depth) := by
  rw [FormatOptions.layout]
  split
  · exact white_lines _
  · exact fun c member => absurd member List.not_mem_nil

/-- No flavor quotes with a bracket or a blank. -/
theorem proper_quote (flavor : Flavor) : Proper flavor.quote := by
  unfold Proper
  cases flavor <;> decide

/-- The texts of a tree in two layouts have the same spacing. -/
theorem parallel_layouts (flavor : Flavor) (options options' : FormatOptions) :
    Grammar.Parallel .equal flavor flavor options.layout options'.layout (flavor.quote ∉ ·)
      (Same flavor.quote) where
  plain := quote_not_mem
  bare := .of_free
  joined between first_same rest_same :=
    (first_same.append (.of_free (quote_not_mem between.plain))).append rest_same
  gap depth first_same rest_same := by
    have gap := Same.gap (proper_quote flavor) (white_gap options depth) (white_gap options' depth)
      (Grammar.gap_ne_nil options depth) (Grammar.gap_ne_nil options' depth)
    exact (first_same.append gap).append rest_same
  bracketed same := same.bracketed (proper_quote flavor)
  nested depth same := same.grouped (proper_quote flavor) (white_edge options (depth + 1))
    (white_edge options' (depth + 1)) (white_edge options depth) (white_edge options' depth)
  called bare same := (Same.of_free bare).append (same.bracketed (proper_quote flavor))
  quoted := by
    rintro name _ rfl
    exact .enclose name.toList
  page := by
    rintro page _ rfl
    rw [Grammar.pageClause]
    split
    · exact .cons (.of_free (quote_not_mem (Grammar.plain_page flavor))) .nil
    · exact .nil
  kind same := congrArg Foreign.kind same

end SqlTree.Spacing
