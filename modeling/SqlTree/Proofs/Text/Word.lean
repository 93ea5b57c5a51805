import SqlTree.SqlType

/-!
# Words

Plain words: letters, digits and underscores of ASCII. A text splits into the word at its start and
what stands behind it. The name of a standard type is a plain word, or one with a size in brackets.
-/

namespace SqlTree.Word

def isPart (c : Char) : Bool :=
  c.isAlphanum || c == '_'

/-- Whether a text is a plain word: it starts with a letter. -/
def isPlain (word : List Char) : Bool :=
  word.head?.any Char.isAlpha && word.all isPart

/-- The word at the start of a text, which may be empty, and what stands behind it. -/
def split (text : List Char) : List Char × List Char :=
  (text.takeWhile isPart, text.dropWhile isPart)

/-- A word ends at the first character that is no part of one. -/
theorem split_append {word : List Char} (parts : word.all isPart = true) {c : Char}
    (ends : isPart c = false) (rest : List Char) :
    split (word ++ c :: rest) = (word, c :: rest) := by
  rw [List.all_eq_true] at parts
  rw [split, List.takeWhile_append_of_pos parts, List.dropWhile_append_of_pos parts,
    List.takeWhile_cons_of_neg (by simp [ends]), List.dropWhile_cons_of_neg (by simp [ends]),
    List.append_nil]

theorem split_cons {c : Char} (ends : isPart c = false) (rest : List Char) :
    split (c :: rest) = ([], c :: rest) := by
  have empty : ([] : List Char).all isPart = true := rfl
  exact split_append empty ends rest

theorem isPlain.parts {word : List Char} (plain : isPlain word = true) : word.all isPart = true :=
  (Bool.and_eq_true_iff.mp plain).2

theorem isPlain.ne_nil {word : List Char} (plain : isPlain word = true) : word ≠ [] := by
  rintro rfl
  cases plain

/-- A text of characters none of which is special. -/
theorem free_of_all {special text : List Char} {part : Char → Bool} (parts : text.all part = true)
    (other : special.any part = false) : text.all (· ∉ special) = true := by
  refine List.all_eq_true.mpr fun c member => decide_eq_true fun found => ?_
  exact List.any_eq_false.mp other c found (List.all_eq_true.mp parts c member)

end SqlTree.Word

namespace SqlTree.SqlType

def isSizePart (c : Char) : Bool :=
  c.isDigit || c == ',' || c == ' '

/-- Sizes are written in decimal digits. -/
theorem isSizePart_digits (n : Nat) : (Nat.toDigits 10 n).all isSizePart = true := by
  refine List.all_eq_true.mpr fun c member => ?_
  rw [isSizePart, Nat.isDigit_of_mem_toDigits (by decide) (by decide) member]
  rfl

/-- The name of a standard type is one word, or one word with a size. -/
theorem spelling {type : SqlType} (standard : ∀ name, type ≠ .custom name) :
    ∃ word, Word.isPlain word = true ∧ (type.name.toList = word ∨
      ∃ size, size.all isSizePart = true ∧ type.name.toList = word ++ '(' :: size ++ [')']) := by
  cases type with
  | decimal precision scale =>
    refine ⟨"DECIMAL".toList, by decide, ?_⟩
    cases precision with
    | none => exact .inl (by simp only [name])
    | some precision =>
      cases scale with
      | none =>
        exact .inr ⟨_, isSizePart_digits precision, by simp [name, toString]⟩
      | some scale =>
        refine .inr ⟨Nat.toDigits 10 precision ++ ',' :: ' ' :: Nat.toDigits 10 scale, ?_,
          by simp [name, toString]⟩
        rw [List.all_append, isSizePart_digits precision, List.all_cons, List.all_cons,
          isSizePart_digits scale]
        rfl
  | varchar length =>
    refine ⟨"VARCHAR".toList, by decide, ?_⟩
    cases length with
    | none => exact .inl rfl
    | some length => exact .inr ⟨_, isSizePart_digits length, by simp [name, toString]⟩
  | custom name => exact absurd rfl (standard name)
  | _ => exact ⟨_, by decide, .inl rfl⟩

end SqlTree.SqlType
