import SqlTree.Proofs.Text.Parallel

/-!
# Properties that texts inherit from their pieces

A property that every piece of a text has, and that survives putting texts side by side and into
brackets, holds for the text of every tree. It is a relation of which only the first side counts,
and every tree is like itself.
-/

namespace SqlTree

namespace Grammar

variable {flavor : Flavor} {layout : Layout} {P : List Char → Prop}

structure Inherited (flavor : Flavor) (layout : Layout) (P : List Char → Prop) : Prop where
  append {first rest : List Char} : P first → P rest → P (first ++ rest)
  bracketed {content : List Char} : P content → P (bracketed content)
  plain {text : List Char} : plain text = true → P text
  quoted (name : String) : P (quoted flavor name)
  gap (depth : Nat) : P (layout.gap depth)
  edge (depth : Nat) : P (layout.edge depth)

/-- A property of single texts on both sides of the same text. -/
abbrev ParallelSelf (flavor : Flavor) (layout : Layout) (P : List Char → Prop) : Prop :=
  Parallel .equal flavor flavor layout layout P fun text _ => P text

theorem nested_eq_bracketed (layout : Layout) (depth : Nat) (query : List Char) :
    nested layout depth query =
      bracketed (layout.edge (depth + 1) ++ query ++ layout.edge depth) := by
  simp [nested, bracketed]

namespace Inherited

variable (inherited : Inherited flavor layout P)

include inherited

theorem operand (node : Scalar) {text : List Char} (inside : P text) : P (operand node text) := by
  rw [Grammar.operand]
  split
  · exact inherited.bracketed inside
  · exact inside

/-- What stands in the brackets around a query. -/
theorem nestedContent (depth : Nat) {query : List Char} (inside : P query) :
    P (layout.edge (depth + 1) ++ query ++ layout.edge depth) :=
  inherited.append (inherited.append (inherited.edge (depth + 1)) inside) (inherited.edge depth)

theorem parallel : ParallelSelf flavor layout P where
  plain := inherited.plain
  bare holds := holds
  joined := by
    intro separator first _ rest _ between left right
    exact inherited.append (inherited.append left (inherited.plain between.plain)) right
  gap depth left right := inherited.append (inherited.append left (inherited.gap depth)) right
  bracketed := inherited.bracketed
  nested depth inside := by
    rw [nested_eq_bracketed]
    exact inherited.bracketed (inherited.nestedContent depth inside)
  called name content := inherited.append name (inherited.bracketed content)
  quoted _ := inherited.quoted _
  page := by
    rintro page _ rfl
    rw [pageClause]
    split
    · exact .cons (inherited.plain (plain_page flavor)) .nil
    · exact .nil
  kind same := congrArg Foreign.kind same

/-- What stands in the brackets of a cast. -/
theorem converted {text : List Char} (inside : P text) (type : SqlType)
    (bare : ∀ name, type = .custom name → P name.toList) :
    P (phrase [text, "AS".toList, type.name.toList]) :=
  @Parallel.converted _ _ _ _ _ _ _ inherited.parallel text text inside type bare

end Inherited

end Grammar

abbrev Slot.TextsAll (P : List Char → Prop) (flavor : Flavor) (layout : Layout) (s : Slot)
    (parts : s.Part) : Prop :=
  s.TextsAlike .equal flavor flavor layout layout (fun _ text _ => P text) parts parts

end SqlTree
