import SqlTree.Proofs.Text.Pieces

/-!
# Brackets outside quoted names

A reader that goes through a text from left to right knows at each place whether it is inside a
quoted name, and how many brackets are open. Two quotes next to each other inside a name lead out of
it and back in, so nothing has to be known about doubled quotes. A text is closed if the reader
comes out as it went in, and never meets a closing bracket too many: the text of every tree is.

`outside` is what a text shows next to its quoted names and its bracketed groups.
-/

namespace SqlTree.Brackets

/-- Where a reader is: inside a quoted name or not, and inside how many brackets. -/
structure Place where
  quoted : Bool := false
  depth : Nat := 0
  deriving DecidableEq

/-- Where the next character leads. A closing bracket has to close one. -/
def Place.step (quote : Char) (place : Place) (c : Char) : Option Place :=
  if c = quote then some { place with quoted := !place.quoted }
  else if place.quoted then some place
  else if c = '(' then some { place with depth := place.depth + 1 }
  else if c = ')' then
    match place.depth with
    | 0 => none
    | depth + 1 => some { place with depth }
  else some place

def Place.isOutside (place : Place) : Bool :=
  !place.quoted && place.depth == 0

def walk (quote : Char) : Place → List Char → Option Place
  | place, [] => some place
  | place, c :: text => (place.step quote c).bind (walk quote · text)

/-- The characters of a text that stand between two places that are inside nothing. -/
def visible (quote : Char) : Place → List Char → List Char
  | _, [] => []
  | place, c :: text =>
    match place.step quote c with
    | none => []
    | some next =>
      if place.isOutside && next.isOutside then c :: visible quote next text
      else visible quote next text

/-- The characters of a text that stand outside quoted names and brackets. -/
def outside (quote : Char) (text : List Char) : List Char :=
  visible quote {} text

/-- A text that leads back to where it starts, from any depth. -/
def Closed (quote : Char) (text : List Char) : Prop :=
  ∀ depth, walk quote { depth } text = some { depth }

variable {quote : Char} {text first rest content : List Char} {place next : Place}

/-! ## Closed texts -/

/-- A reader goes on from where a text leads. -/
theorem walk_append (place : Place) (first rest : List Char) :
    walk quote place (first ++ rest) = (walk quote place first).bind (walk quote · rest) := by
  induction first generalizing place with
  | nil => rfl
  | cons c first ih =>
    rw [List.cons_append, walk, walk]
    cases place.step quote c with
    | none => rfl
    | some next => exact ih next

theorem Closed.append (closed : Closed quote first) (closedRest : Closed quote rest) :
    Closed quote (first ++ rest) := by
  intro depth
  rw [walk_append, closed depth]
  exact closedRest depth

/-- The quotes and brackets of the flavors; a flavor may not use all of them. -/
theorem step_plain {c : Char} (flavor : Flavor) (simple : c ∉ ['"', '\x60', '(', ')'])
    (place : Place) : place.step flavor.quote c = some place := by
  simp only [List.mem_cons, List.not_mem_nil, or_false, not_or] at simple
  have notQuote : c ≠ flavor.quote := by cases flavor <;> simp [Flavor.quote, simple]
  simp [Place.step, notQuote, simple]

theorem walk_plain (flavor : Flavor) (simple : Grammar.plain text = true) (place : Place) :
    walk flavor.quote place text = some place := by
  induction text with
  | nil => rfl
  | cons c text ih =>
    rw [Grammar.plain, List.all_cons, Bool.and_eq_true, decide_eq_true_eq] at simple
    rw [walk, step_plain flavor simple.1]
    exact ih simple.2

/-- What is closed may stand in brackets. -/
theorem closed_bracketed (flavor : Flavor) (closed : Closed flavor.quote content) :
    Closed flavor.quote (Grammar.bracketed content) := by
  intro depth
  have opening : walk flavor.quote { depth } ['('] = some { depth := depth + 1 } := by
    cases flavor <;> rfl
  have closing : walk flavor.quote { depth := depth + 1 } [')'] = some { depth } := by
    cases flavor <;> rfl
  have spelled : Grammar.bracketed content = ['('] ++ content ++ [')'] := rfl
  rw [spelled, walk_append, walk_append, opening, Option.bind_some, closed, Option.bind_some,
    closing]

/-- Inside a quoted name nothing happens until its end. -/
theorem walk_double (name : List Char) (depth : Nat) :
    walk quote { quoted := true, depth } (Quoted.double quote name) =
      some { quoted := true, depth } := by
  induction name with
  | nil => rfl
  | cons c name ih =>
    rw [Quoted.double]
    split
    · simpa [walk, Place.step] using ih
    · next other => simpa [walk, Place.step, other] using ih

/-- Brackets in a quoted name do not count. -/
theorem closed_enclose (name : List Char) : Closed quote (Quoted.enclose quote name) := by
  intro depth
  have spelled : Quoted.enclose quote name = [quote] ++ Quoted.double quote name ++ [quote] := rfl
  have opening : walk quote { depth } [quote] = some { quoted := true, depth } := by
    simp [walk, Place.step]
  have closing : walk quote { quoted := true, depth } [quote] = some { depth } := by
    simp [walk, Place.step]
  rw [spelled, walk_append, walk_append, opening, Option.bind_some, walk_double, Option.bind_some,
    closing]

/-- Closedness is inherited from pieces in every layout that options ask for. -/
theorem inherited_closed (flavor : Flavor) (options : FormatOptions) :
    Grammar.Inherited flavor options.layout (Closed flavor.quote) where
  append := .append
  bracketed := closed_bracketed flavor
  plain simple _ := walk_plain flavor simple _
  quoted name := closed_enclose name.toList
  gap depth _ := walk_plain flavor (Grammar.plain_gap options depth) _
  edge depth _ := walk_plain flavor (Grammar.plain_edge options depth) _

/-! ## What stands outside -/

theorem visible_append (walked : walk quote place first = some next) (rest : List Char) :
    visible quote place (first ++ rest) =
      visible quote place first ++ visible quote next rest := by
  induction first generalizing place with
  | nil =>
    cases walked
    rfl
  | cons c first ih =>
    rw [walk] at walked
    obtain ⟨there, stepped, walked⟩ := Option.bind_eq_some_iff.mp walked
    simp only [List.cons_append, visible, stepped, ih walked]
    split <;> rfl

/-- Behind a closed text a reader is where it was. -/
theorem outside_append (closed : Closed quote first) (rest : List Char) :
    outside quote (first ++ rest) = outside quote first ++ outside quote rest :=
  visible_append (closed 0) rest

theorem outside_plain (flavor : Flavor) (simple : Grammar.plain text = true) :
    outside flavor.quote text = text := by
  rw [outside]
  induction text with
  | nil => rfl
  | cons c text ih =>
    rw [Grammar.plain, List.all_cons, Bool.and_eq_true, decide_eq_true_eq] at simple
    rw [visible, step_plain flavor simple.1]
    exact congrArg (c :: ·) (ih simple.2)

/-- One level deeper everything goes the same way. -/
theorem step_deeper {quoted : Bool} {depth : Nat} {c : Char} {there : Place}
    (stepped : Place.step quote ⟨quoted, depth⟩ c = some there) :
    Place.step quote ⟨quoted, depth + 1⟩ c = some ⟨there.quoted, there.depth + 1⟩ := by
  by_cases isQuote : c = quote
  · simp only [Place.step, if_pos isQuote] at stepped ⊢
    cases stepped
    rfl
  · cases quoted with
    | true =>
      simp only [Place.step, if_neg isQuote, if_true] at stepped ⊢
      cases stepped
      rfl
    | false =>
      simp only [Place.step, if_neg isQuote, Bool.false_eq_true, if_false] at stepped ⊢
      by_cases opening : c = '('
      · simp only [if_pos opening] at stepped ⊢
        cases stepped
        rfl
      · simp only [if_neg opening] at stepped ⊢
        by_cases closing : c = ')'
        · simp only [if_pos closing] at stepped ⊢
          cases depth with
          | zero => cases stepped
          | succ depth =>
            cases stepped
            rfl
        · simp only [if_neg closing] at stepped ⊢
          cases stepped
          rfl

/-- Nothing of a text shows inside a bracket that it does not close. -/
theorem visible_deeper {quoted : Bool} {depth : Nat}
    (walked : walk quote ⟨quoted, depth⟩ text = some next) :
    visible quote ⟨quoted, depth + 1⟩ text = [] := by
  induction text generalizing quoted depth with
  | nil => rfl
  | cons c text ih =>
    rw [walk] at walked
    obtain ⟨there, stepped, walked⟩ := Option.bind_eq_some_iff.mp walked
    have hidden : (Place.mk quoted (depth + 1)).isOutside = false := by simp [Place.isOutside]
    simp only [visible, step_deeper stepped, hidden, Bool.false_and, Bool.false_eq_true, if_false]
    exact ih walked

/-- Nothing in brackets is outside. -/
theorem outside_bracketed (flavor : Flavor) (closed : Closed flavor.quote content) :
    outside flavor.quote (Grammar.bracketed content) = [] := by
  have opening : walk flavor.quote {} ['('] = some { depth := 1 } := by cases flavor <;> rfl
  have unseen : visible flavor.quote {} ['('] = [] := by cases flavor <;> rfl
  have closing : visible flavor.quote { depth := 1 } [')'] = [] := by cases flavor <;> rfl
  have spelled : Grammar.bracketed content = ['('] ++ (content ++ [')']) := rfl
  rw [outside, spelled, visible_append opening, visible_append (closed 1), unseen,
    visible_deeper (closed 0), closing]
  rfl

theorem visible_double (name : List Char) :
    visible quote { quoted := true } (Quoted.double quote name) = [] := by
  induction name with
  | nil => rfl
  | cons c name ih =>
    rw [Quoted.double]
    split
    · simpa [visible, Place.step, Place.isOutside] using ih
    · next other => simpa [visible, Place.step, Place.isOutside, other] using ih

theorem outside_enclose (name : List Char) : outside quote (Quoted.enclose quote name) = [] := by
  have opening : walk quote {} [quote] = some { quoted := true } := by simp [walk, Place.step]
  have unseen : visible quote {} [quote] = [] := by simp [visible, Place.step, Place.isOutside]
  have closing : visible quote { quoted := true } [quote] = [] := by
    simp [visible, Place.step, Place.isOutside]
  have spelled : Quoted.enclose quote name = [quote] ++ (Quoted.double quote name ++ [quote]) := rfl
  rw [outside, spelled, visible_append opening, visible_append (walk_double name 0), unseen,
    visible_double, closing]
  rfl

end SqlTree.Brackets
