import SqlTree.Proofs.Tree.Shown

/-!
# Joins in a row

Joins are written from left to right with nothing around them, so what can be seen of a tree of
joins is a row: a first table, and behind it more tables and conditions. If every join has a
condition, the row determines the tree, for each condition belongs to the last join before it that
has none yet. A join without a condition leaves the nesting open, unless it is the outermost one and
has a single table on its right.
-/

namespace SqlTree

/-- A source of tables and joins, without the identities of its nodes. -/
inductive JoinTree where
  | table (t : Table)
  | join (kind : JoinKind) (left right : JoinTree) (test : Option Scalar)

/-- What stands behind the first table of a row. -/
inductive JoinStep where
  | joins (kind : JoinKind) (t : Table)
  | on (test : Scalar)

/-- Tables and conditions as they are written, from left to right. -/
structure JoinRow where
  first : Table
  steps : List JoinStep

inductive JoinToken where
  | table (t : Table)
  | keyword (kind : JoinKind)
  | on (test : Scalar)

def JoinStep.tokens : JoinStep → List JoinToken
  | .joins kind t => [.keyword kind, .table t]
  | .on test => [.on test]

def JoinRow.tokens (row : JoinRow) : List JoinToken :=
  .table row.first :: row.steps.flatMap JoinStep.tokens

def JoinStep.shown : JoinStep → JoinStep
  | .joins kind t => .joins kind t.shown
  | .on test => .on test.shown

def JoinRow.shown (row : JoinRow) : JoinRow :=
  ⟨row.first.shown, row.steps.map JoinStep.shown⟩

namespace JoinToken

def isKeyword : JoinToken → Bool
  | .keyword _ => true
  | _ => false

def isTest : JoinToken → Bool
  | .on _ => true
  | _ => false

end JoinToken

namespace JoinTree

def first : JoinTree → Table
  | .table t => t
  | .join _ left _ _ => left.first

def steps : JoinTree → List JoinStep
  | .table _ => []
  | .join kind left right test =>
    left.steps ++ .joins kind right.first :: (right.steps ++ test.toList.map .on)

def row (tree : JoinTree) : JoinRow :=
  ⟨tree.first, tree.steps⟩

def joins : JoinTree → Nat
  | .table _ => 0
  | .join _ left right _ => left.joins + right.joins + 1

def missing : JoinTree → Nat
  | .table _ => 0
  | .join _ left right none => left.missing + right.missing + 1
  | .join _ left right (some _) => left.missing + right.missing

/-- Whether the row can be read in one way only: every join has a condition, or every one but the
outermost, which has a table on its right. -/
def definite : JoinTree → Bool
  | .join _ left (.table _) none => left.missing == 0
  | tree => tree.missing == 0

/-! ## What is shown -/

def shown : JoinTree → JoinTree
  | .table t => .table t.shown
  | .join kind left right test => .join kind left.shown right.shown (test.map Tree.shown)

theorem row_shown (tree : JoinTree) : tree.shown.row = tree.row.shown := by
  simp only [row, JoinRow.shown, JoinRow.mk.injEq]
  induction tree with
  | table => exact ⟨rfl, rfl⟩
  | join kind left right test ihLeft ihRight =>
    obtain ⟨leftFirst, leftSteps⟩ := ihLeft
    obtain ⟨rightFirst, rightSteps⟩ := ihRight
    refine ⟨leftFirst, ?_⟩
    cases test <;> simp [shown, steps, leftSteps, rightFirst, rightSteps, JoinStep.shown]

theorem missing_shown (tree : JoinTree) : tree.shown.missing = tree.missing := by
  induction tree with
  | table => rfl
  | join kind left right test ihLeft ihRight =>
    cases test <;> simp [shown, missing, ihLeft, ihRight]

theorem definite_shown (tree : JoinTree) : tree.shown.definite = tree.definite := by
  cases tree with
  | table => rfl
  | join kind left right test =>
    have whole := congrArg (· == 0) (join kind left right test).missing_shown
    cases right with
    | join => exact whole
    | table t =>
      cases test with
      | none => exact congrArg (· == 0) left.missing_shown
      | some => exact whole

theorem joins_shown (tree : JoinTree) : tree.shown.joins = tree.joins := by
  induction tree with
  | table => rfl
  | join kind left right test ihLeft ihRight => rw [shown, joins, joins, ihLeft, ihRight]

/-! ## Pieces -/

variable {kind : JoinKind} {left right : JoinTree} {test : Option Scalar}

theorem tokens_join :
    (join kind left right test).row.tokens =
      left.row.tokens ++ .keyword kind :: (right.row.tokens ++ test.toList.map .on) := by
  cases test <;> simp [row, JoinRow.tokens, first, steps, JoinStep.tokens]

theorem reverse_tokens_join :
    (join kind left right test).row.tokens.reverse =
      test.toList.map .on
        ++ (right.row.tokens.reverse ++ .keyword kind :: left.row.tokens.reverse) := by
  cases test <;> simp [tokens_join]

/-- The joins without a condition are those that outnumber the conditions. -/
theorem countP_tokens (tree : JoinTree) :
    tree.row.tokens.countP JoinToken.isTest + tree.missing =
      tree.row.tokens.countP JoinToken.isKeyword := by
  induction tree with
  | table => rfl
  | join kind left right test ihLeft ihRight =>
    cases test <;>
      simp [tokens_join, missing, JoinToken.isTest, JoinToken.isKeyword, List.countP_cons]
    all_goals omega

/-- The row tells how many conditions are missing. -/
theorem missing_eq_of_row {a b : JoinTree} (same : a.row = b.row) : a.missing = b.missing := by
  have first := a.countP_tokens
  have second := b.countP_tokens
  rw [same] at first
  omega

/-! ## Rows that determine the tree -/

/-- A join whose parts all have conditions has one itself. -/
theorem parts_of_missing_eq_zero (full : (join kind left right test).missing = 0) :
    ∃ condition, test = some condition ∧ left.missing = 0 ∧ right.missing = 0 := by
  cases test with
  | none => cases full
  | some condition =>
    rw [missing] at full
    exact ⟨condition, rfl, by omega, by omega⟩

/-- Read from its end, the row of a tree whose joins all have conditions tells at each piece what
comes next: a table stands alone, a condition announces a join with its two sides. -/
theorem eq_of_reverse {a b : JoinTree} (fullA : a.missing = 0) (fullB : b.missing = 0)
    {restA restB : List JoinToken}
    (same : a.row.tokens.reverse ++ restA = b.row.tokens.reverse ++ restB) :
    a = b ∧ restA = restB := by
  induction a generalizing b restA restB with
  | table t =>
    cases b with
    | table u =>
      obtain ⟨tables, rests⟩ := List.cons.inj same
      cases tables
      exact ⟨rfl, rests⟩
    | join kind left right test =>
      obtain ⟨condition, rfl, -, -⟩ := parts_of_missing_eq_zero fullB
      rw [reverse_tokens_join] at same
      cases (List.cons.inj same).1
  | join kind left right test ihLeft ihRight =>
    obtain ⟨condition, rfl, fullLeft, fullRight⟩ := parts_of_missing_eq_zero fullA
    cases b with
    | table u =>
      rw [reverse_tokens_join] at same
      cases (List.cons.inj same).1
    | join kindB leftB rightB testB =>
      obtain ⟨conditionB, rfl, fullLeftB, fullRightB⟩ := parts_of_missing_eq_zero fullB
      rw [reverse_tokens_join, reverse_tokens_join, List.append_assoc, List.append_assoc,
        List.append_assoc, List.append_assoc] at same
      obtain ⟨conditions, inner⟩ := List.cons.inj same
      obtain ⟨rfl, outer⟩ := ihRight fullRight fullRightB inner
      obtain ⟨keywords, outer⟩ := List.cons.inj outer
      obtain ⟨rfl, rests⟩ := ihLeft fullLeft fullLeftB outer
      cases conditions
      cases keywords
      exact ⟨rfl, rests⟩

/-- Read from the right, a row with all its conditions can be taken apart in one way only. -/
theorem eq_of_tokens {a b : JoinTree} (fullA : a.missing = 0) (fullB : b.missing = 0)
    (same : a.row.tokens.reverse = b.row.tokens.reverse) : a = b :=
  (eq_of_reverse fullA fullB (congrArg (· ++ []) same)).1

theorem definite_join_some {condition : Scalar} :
    (join kind left right (some condition)).definite = (left.missing + right.missing == 0) := by
  cases right <;> rfl

/-- A definite tree lacks no condition, or only that of its last join. -/
theorem definite_cases {tree : JoinTree} (definite : tree.definite = true) :
    tree.missing = 0 ∨
      ∃ kind left t, tree = join kind left (.table t) none ∧ left.missing = 0 := by
  unfold JoinTree.definite at definite
  split at definite
  · exact .inr ⟨_, _, _, rfl, beq_iff_eq.mp definite⟩
  · exact .inl (beq_iff_eq.mp definite)

/-- A definite tree is the only one with its row. -/
theorem eq_of_definite {a b : JoinTree} (definite : a.definite = true) (same : a.row = b.row) :
    a = b := by
  have missing := missing_eq_of_row same
  have reversed := congrArg (fun row => row.tokens.reverse) same
  rcases definite_cases definite with full | ⟨kind, left, t, rfl, full⟩
  · exact eq_of_tokens full (missing ▸ full) reversed
  · cases b with
    | table u => cases missing
    | join kindB leftB rightB testB =>
      simp only [reverse_tokens_join] at reversed
      cases testB with
      | some condition => cases (List.cons.inj reversed).1
      | none =>
        -- The other tree lacks as many conditions, so both of its sides have all of theirs.
        simp only [JoinTree.missing, full] at missing
        obtain ⟨rfl, behind⟩ := eq_of_reverse rfl (by omega) reversed
        obtain ⟨keywords, lefts⟩ := List.cons.inj behind
        cases keywords
        rw [eq_of_tokens full (by omega) lefts]

/-- What is shown of the row of a definite tree determines what is shown of the tree. -/
theorem shown_eq_of_definite {a b : JoinTree} (definite : a.definite = true)
    (same : a.row.shown = b.row.shown) : a.shown = b.shown := by
  rw [← a.definite_shown] at definite
  rw [← a.row_shown, ← b.row_shown] at same
  exact eq_of_definite definite same

/-! ## Rows that leave the nesting open -/

/-- Joins may be nested to the left or to the right around one without a condition. -/
theorem row_rotate {middle : JoinTree} {first second : JoinKind} :
    (join second (join first left middle none) right test).row =
      (join first left (join second middle right test) none).row := by
  simp [row, JoinTree.first, steps]

/-- A condition may belong to either of two joins. -/
theorem row_reattach {middle : JoinTree} {first second : JoinKind} :
    (join first left (join second middle right none) test).row =
      (join second (join first left middle none) right test).row := by
  simp [row, JoinTree.first, steps]

/-- The row of a join depends on the rows of its sides only. -/
theorem row_join_congr {left' right' : JoinTree} (lefts : left.row = left'.row)
    (rights : right.row = right'.row) :
    (join kind left right test).row = (join kind left' right' test).row := by
  simp only [row, JoinRow.mk.injEq] at lefts rights
  simp only [row, first, steps, lefts, rights]

/-- A tree that lacks a condition lacks one at its root, or is not definite. -/
theorem root_or_indefinite {tree : JoinTree} (lacking : tree.missing ≠ 0) :
    (∃ kind left right, tree = join kind left right none) ∨ tree.definite = false := by
  cases tree with
  | table => exact absurd rfl lacking
  | join kind left right test =>
    cases test with
    | none => exact .inl ⟨kind, left, right, rfl⟩
    | some test =>
      rw [definite_join_some]
      exact .inr (beq_eq_false_iff_ne.mpr lacking)

/-- Trees with different numbers of joins on their left sides are not shown alike. -/
theorem shown_ne_of_joins {kind' : JoinKind} {left' right' : JoinTree} {test' : Option Scalar}
    (different : left.joins ≠ left'.joins) :
    (join kind left right test).shown ≠ (join kind' left' right' test').shown := by
  intro same
  have lefts : left.shown = left'.shown := (join.inj same).2.1
  rw [← left.joins_shown, ← left'.joins_shown, lefts] at different
  exact different rfl

/-- The row of a tree that is not definite is also that of a tree which is not shown alike. -/
theorem exists_shown_ne {tree : JoinTree} (indefinite : tree.definite = false) :
    ∃ other : JoinTree, other.row = tree.row ∧ other.shown ≠ tree.shown := by
  -- Where a side of a join has a join without a condition at its root, that one can change places
  -- with the join around it; where it has one further down, the side has another reading itself.
  induction tree with
  | table => cases indefinite
  | join kind left right test ihLeft ihRight =>
    by_cases lacking : left.missing = 0
    · cases test with
      | none =>
        cases right with
        | table t => exact absurd lacking (beq_eq_false_iff_ne.mp indefinite)
        | join second middle last test =>
          exact ⟨join second (join kind left middle none) last test, row_rotate,
            shown_ne_of_joins (by rw [joins]; omega)⟩
      | some test =>
        have rightLacking : right.missing ≠ 0 := by
          rw [definite_join_some, lacking, Nat.zero_add] at indefinite
          exact beq_eq_false_iff_ne.mp indefinite
        rcases root_or_indefinite rightLacking with ⟨second, middle, last, rfl⟩ | indefinite
        · exact ⟨join second (join kind left middle none) last (some test), row_reattach.symm,
            shown_ne_of_joins (by rw [joins]; omega)⟩
        · obtain ⟨other, rows, different⟩ := ihRight indefinite
          exact ⟨join kind left other (some test), row_join_congr rfl rows,
            fun same => different (join.inj same).2.2.1⟩
    · rcases root_or_indefinite lacking with ⟨second, front, middle, rfl⟩ | indefinite
      · exact ⟨join second front (join kind middle right test) none, row_rotate.symm,
          shown_ne_of_joins (by rw [joins]; omega)⟩
      · obtain ⟨other, rows, different⟩ := ihLeft indefinite
        exact ⟨join kind other right test, row_join_congr rows rfl,
          fun same => different (join.inj same).2.1⟩

/-! ## Sources -/

/-- The source with these joins, all of whose nodes have the same identity. -/
def toSource : JoinTree → Source
  | .table t => .table ⟨0, t⟩
  | .join kind left right test => .join 0 kind left.toSource right.toSource (.ofOption test)

end JoinTree

end SqlTree
