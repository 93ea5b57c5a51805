import SqlTree.Proofs.Text.ReadBack
import SqlTree.Proofs.Tree.JoinTree

/-!
# The text of joins in a row

The text of a row is that of its first table, and behind it those of its steps. Tables are told
apart by their quoted names and dots, joins by their keywords, and conditions are operator
expressions; so two rows with the same text are shown alike.
-/

namespace SqlTree

open Grammar

/-! ## Names -/

theorem quoted_eq_of_append {flavor : Flavor} {name name' : String} {rest rest' : List Char}
    (apart : rest.head? ≠ some flavor.quote) (apart' : rest'.head? ≠ some flavor.quote)
    (same : quoted flavor name ++ rest = quoted flavor name' ++ rest') :
    name = name' ∧ rest = rest' := by
  obtain ⟨names, rests⟩ := Quoted.eq_of_enclose_append apart apart' same
  exact ⟨String.toList_inj.mp names, rests⟩

/-- Names behind a first one, each with a dot in front. -/
def dotted (flavor : Flavor) (names : List String) : List Char :=
  names.flatMap fun name => '.' :: quoted flavor name

theorem dotted_head_ne {flavor : Flavor} (names : List String) {rest : List Char}
    (detached : Reading.Detached flavor rest) :
    (dotted flavor names ++ rest).head? ≠ some flavor.quote := by
  cases names with
  | nil => exact detached.1
  | cons name names => cases flavor <;> exact nofun

/-- The dots tell how many names there are. -/
theorem dotted_eq_of_append {flavor : Flavor} {names names' : List String} {rest rest' : List Char}
    (detached : Reading.Detached flavor rest) (detached' : Reading.Detached flavor rest')
    (same : dotted flavor names ++ rest = dotted flavor names' ++ rest') :
    names = names' ∧ rest = rest' := by
  induction names generalizing names' with
  | nil =>
    cases names' with
    | nil => exact ⟨rfl, same⟩
    | cons name' names' => exact absurd (congrArg List.head? same) detached.2
  | cons name names ih =>
    cases names' with
    | nil => exact absurd (congrArg List.head? same).symm detached'.2
    | cons name' names' =>
      simp only [dotted, List.flatMap_cons, List.cons_append, List.append_assoc,
        List.cons.injEq, true_and] at same
      obtain ⟨rfl, behind⟩ := quoted_eq_of_append (dotted_head_ne names detached)
        (dotted_head_ne names' detached') same
      obtain ⟨rfl, rests⟩ := ih behind
      exact ⟨rfl, rests⟩

/-! ## Tables -/

/-- The names of a table, from the outermost qualifier on. -/
def Table.names (t : Table) : List String :=
  t.catalog.toList ++ t.schema.toList ++ [t.name]

theorem Table.shown_eq_of_names {t u : Table} (names : t.names = u.names)
    (aliases : t.aliasName = u.aliasName) : t.shown = u.shown := by
  obtain ⟨name, aliasName, catalog, schema⟩ := t
  obtain ⟨name', aliasName', catalog', schema'⟩ := u
  cases catalog <;> cases schema <;> cases catalog' <;> cases schema' <;>
    simp_all [Table.names, Table.shown]

theorem cons_tableName (flavor : Flavor) (t : Table) :
    '.' :: tableName flavor t = dotted flavor t.names := by
  obtain ⟨name, aliasName, catalog, schema⟩ := t
  cases catalog <;> cases schema <;> simp [tableName, qualifier, dotted, Table.names]

def Grammar.table (flavor : Flavor) (t : Table) : List Char :=
  phrase ([tableName flavor t] ++ t.aliasName.elim [] fun name => [quoted flavor name])

theorem table_eq_append (flavor : Flavor) (t : Table) :
    Grammar.table flavor t =
      tableName flavor t ++ t.aliasName.elim [] fun name => ' ' :: quoted flavor name := by
  rw [Grammar.table]
  cases t.aliasName <;> simp [phrase, intercalate_cons_eq]

/-- A lone catalog is written as a lone schema is. -/
theorem table_shown (flavor : Flavor) (t : Table) :
    Grammar.table flavor t.shown = Grammar.table flavor t := by
  obtain ⟨name, aliasName, catalog, schema⟩ := t
  cases catalog <;> cases schema <;> simp [Grammar.table, tableName, qualifier, Table.shown]

theorem table_eq_cons (flavor : Flavor) (t : Table) :
    ∃ rest, Grammar.table flavor t = flavor.quote :: rest := by
  rw [table_eq_append, tableName]
  obtain ⟨name, aliasName, catalog, schema⟩ := t
  cases catalog <;> cases schema <;> exact ⟨_, rfl⟩

/-- Whether a text can follow a table or a condition in a row: it goes on with neither, and does not
name the table. -/
structure Behind (flavor : Flavor) (rest : List Char) : Prop where
  ends : Reading.Ends flavor rest
  unnamed (more : List Char) : rest ≠ ' ' :: flavor.quote :: more

/-- A table is told by its text, as far as it is shown there. -/
theorem table_eq_of_append {flavor : Flavor} {t u : Table} {rest rest' : List Char}
    (behind : Behind flavor rest) (behind' : Behind flavor rest')
    (same : Grammar.table flavor t ++ rest = Grammar.table flavor u ++ rest') :
    t.shown = u.shown ∧ rest = rest' := by
  have detached (name : Option String) {rest : List Char} (behind : Behind flavor rest) :
      Reading.Detached flavor ((name.elim [] fun name => ' ' :: quoted flavor name) ++ rest) := by
    cases name with
    | none => exact behind.ends.detached
    | some name => exact Reading.detached_blank
  -- With a dot in front, the names form a dotted list whatever the qualifiers are.
  have texts := congrArg (List.cons '.') same
  rw [table_eq_append, table_eq_append, List.append_assoc, List.append_assoc, ← List.cons_append,
    ← List.cons_append, cons_tableName, cons_tableName] at texts
  obtain ⟨names, aliases⟩ := dotted_eq_of_append (detached _ behind) (detached _ behind') texts
  cases first : t.aliasName with
  | none =>
    cases second : u.aliasName with
    | none =>
      rw [first, second] at aliases
      exact ⟨Table.shown_eq_of_names names (first.trans second.symm), aliases⟩
    | some name' =>
      rw [first, second] at aliases
      exact absurd aliases (behind.unnamed _)
  | some name =>
    cases second : u.aliasName with
    | none =>
      rw [first, second] at aliases
      exact absurd aliases.symm (behind'.unnamed _)
    | some name' =>
      rw [first, second] at aliases
      obtain ⟨rfl, rests⟩ := quoted_eq_of_append behind.ends.detached.1 behind'.ends.detached.1
        (List.cons.inj aliases).2
      exact ⟨Table.shown_eq_of_names names (first.trans second.symm), rests⟩

/-! ## Steps -/

section Steps

variable (flavor : Flavor) (layout : Layout) (depth : Nat)

/-- The text of a step, with the white space in front of it. -/
def JoinStep.render : JoinStep → List Char
  | .joins kind t => layout.gap depth ++ phrase [kind.keyword.toList, Grammar.table flavor t]
  | .on test => " ON ".toList ++ test.render flavor layout depth

def JoinRow.render (row : JoinRow) : List Char :=
  Grammar.table flavor row.first ++ row.steps.flatMap (JoinStep.render flavor layout depth)

end Steps

def JoinRow.Operational (row : JoinRow) : Prop :=
  ∀ test, JoinStep.on test ∈ row.steps → test.operational = true

variable {flavor : Flavor} {options : FormatOptions} {depth : Nat}

theorem gap_cases (options : FormatOptions) (depth : Nat) :
    options.layout.gap depth = [' '] ∨ ∃ more, options.layout.gap depth = '\n' :: more := by
  rw [FormatOptions.layout]
  split
  · exact .inr ⟨_, rfl⟩
  · exact .inl rfl

theorem behind_nil : Behind flavor [] :=
  ⟨Reading.ends_nil, nofun⟩

/-- Keywords and conditions may follow tables and conditions. -/
theorem behind_step (step : JoinStep) (rest : List Char) :
    Behind flavor (step.render flavor options.layout depth ++ rest) := by
  cases step with
  | on test =>
    refine ⟨⟨Reading.detached_blank, rfl⟩, fun more same => ?_⟩
    cases flavor <;> cases same
  | joins kind t =>
    rw [JoinStep.render]
    obtain gap | ⟨more, gap⟩ := gap_cases options depth
    · rw [gap]
      refine ⟨⟨Reading.detached_blank, by cases kind <;> rfl⟩, fun more same => ?_⟩
      cases flavor <;> cases kind <;> cases same
    · rw [gap]
      exact ⟨⟨Reading.detached_cons (by decide), rfl⟩, nofun⟩

/-- What can follow in a row can be told from a table and a condition. -/
theorem behind_steps (steps : List JoinStep) :
    Behind flavor (steps.flatMap (JoinStep.render flavor options.layout depth)) := by
  cases steps with
  | nil => exact behind_nil
  | cons step steps =>
    rw [List.flatMap_cons]
    exact behind_step step _

/-- No keyword of a join is the beginning of another one. -/
theorem keyword_eq_of_append {kind kind' : JoinKind} {rest rest' : List Char}
    (same : kind.keyword.toList ++ ' ' :: rest = kind'.keyword.toList ++ ' ' :: rest') :
    kind = kind' ∧ rest = rest' := by
  cases kind <;> cases kind' <;> simp_all [JoinKind.keyword]

theorem joins_ne_on (kind : JoinKind) (t : Table) (test : Scalar) (rest rest' : List Char) :
    (JoinStep.joins kind t).render flavor options.layout depth ++ rest ≠
      (JoinStep.on test).render flavor options.layout depth ++ rest' := by
  rw [JoinStep.render]
  obtain gap | ⟨more, gap⟩ := gap_cases options depth
  · rw [gap]
    cases kind <;> exact nofun
  · rw [gap]
    exact nofun

/-- A step is told by its text, as far as it is shown there. -/
theorem step_eq_of_append {step step' : JoinStep} {rest rest' : List Char}
    (operational : ∀ test, step = .on test → test.operational = true)
    (operational' : ∀ test, step' = .on test → test.operational = true)
    (behind : Behind flavor rest) (behind' : Behind flavor rest')
    (same : step.render flavor options.layout depth ++ rest =
      step'.render flavor options.layout depth ++ rest') :
    step.shown = step'.shown ∧ rest = rest' := by
  cases step with
  | joins kind t =>
    cases step' with
    | on test => exact absurd same (joins_ne_on _ _ _ _ _)
    | joins kind' t' =>
      simp only [JoinStep.render, phrase, List.append_assoc, List.append_cancel_left_eq,
        intercalate_cons_eq, List.flatMap_cons, List.flatMap_nil, List.append_nil,
        List.cons_append, List.nil_append] at same
      obtain ⟨rfl, tables⟩ := keyword_eq_of_append same
      obtain ⟨shown, rests⟩ := table_eq_of_append behind behind' tables
      exact ⟨congrArg (JoinStep.joins kind) shown, rests⟩
  | on test =>
    cases step' with
    | joins kind' t' => exact absurd same.symm (joins_ne_on _ _ _ _ _)
    | on test' =>
      simp only [JoinStep.render, List.append_assoc, List.append_cancel_left_eq] at same
      have first : Reading.Legible flavor test (test.render flavor options.layout depth) :=
        test.readsBack flavor options.layout depth (operational test rfl)
      have second : Reading.Legible flavor test' (test'.render flavor options.layout depth) :=
        test'.readsBack flavor options.layout depth (operational' test' rfl)
      obtain ⟨shown, rests⟩ := first.scalar.eq_of_append second.scalar behind.ends behind'.ends same
      exact ⟨congrArg JoinStep.on shown, rests⟩

theorem step_ne_nil (step : JoinStep) : step.render flavor options.layout depth ≠ [] := by
  cases step with
  | on test => exact nofun
  | joins kind t =>
    rw [JoinStep.render]
    obtain gap | ⟨more, gap⟩ := gap_cases options depth <;> rw [gap] <;> exact nofun

/-- Steps are read from left to right: each one is told by its text, and the rest goes on. -/
theorem steps_shown_eq {steps steps' : List JoinStep}
    (operational : ∀ test, .on test ∈ steps → test.operational = true)
    (operational' : ∀ test, .on test ∈ steps' → test.operational = true)
    (same : steps.flatMap (JoinStep.render flavor options.layout depth) =
      steps'.flatMap (JoinStep.render flavor options.layout depth)) :
    steps.map JoinStep.shown = steps'.map JoinStep.shown := by
  induction steps generalizing steps' with
  | nil =>
    cases steps' with
    | nil => rfl
    | cons step' steps' =>
      rw [List.flatMap_nil, List.flatMap_cons] at same
      exact absurd (List.append_eq_nil_iff.mp same.symm).1 (step_ne_nil step')
  | cons step steps ih =>
    cases steps' with
    | nil =>
      rw [List.flatMap_nil, List.flatMap_cons] at same
      exact absurd (List.append_eq_nil_iff.mp same).1 (step_ne_nil step)
    | cons step' steps' =>
      rw [List.flatMap_cons, List.flatMap_cons] at same
      obtain ⟨first, others⟩ := step_eq_of_append
        (fun test is => operational test (is ▸ List.mem_cons_self))
        (fun test is => operational' test (is ▸ List.mem_cons_self))
        (behind_steps steps) (behind_steps steps') same
      have rest := ih (fun test member => operational test (List.mem_cons_of_mem _ member))
        (fun test member => operational' test (List.mem_cons_of_mem _ member)) others
      rw [List.map_cons, List.map_cons, first, rest]

/-- Rows with the same text are shown alike. -/
theorem JoinRow.shown_eq_of_render {row row' : JoinRow} (operational : row.Operational)
    (operational' : row'.Operational)
    (same : row.render flavor options.layout depth = row'.render flavor options.layout depth) :
    row.shown = row'.shown := by
  obtain ⟨first, steps⟩ :=
    table_eq_of_append (behind_steps row.steps) (behind_steps row'.steps) same
  rw [JoinRow.shown, JoinRow.shown, first, steps_shown_eq operational operational' steps]

end SqlTree
