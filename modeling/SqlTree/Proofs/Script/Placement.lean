import SqlTree.Proofs.Script.Action

/-!
# Writing behind what is already there

Actions only ever take back blanks. So once a run has written a character that is no blank, it
never again reaches the text in front of its own, and what it does is the same whatever stands
there. The script of every tree writes such a character before it takes anything back.
-/

namespace SqlTree

/-! ## One formatter's work behind another's -/

namespace Buffer

/-- Something other than blanks is written. -/
def HasNonblank (buffer : Buffer) : Prop :=
  ∃ c ∈ buffer.reversed, c ≠ ' '

theorem HasNonblank.append {buffer : Buffer} (solid : buffer.HasNonblank) (text : List Char) :
    (buffer.append text).HasNonblank := by
  obtain ⟨c, member, visible⟩ := solid
  exact ⟨c, List.mem_append_right _ member, visible⟩

theorem hasNonblank_append_of_mem {text : List Char} {c : Char} (member : c ∈ text)
    (visible : c ≠ ' ') (buffer : Buffer) : (buffer.append text).HasNonblank :=
  ⟨c, List.mem_append_left _ (List.mem_reverse.mpr member), visible⟩

/-- Taking a blank back leaves everything else. -/
theorem HasNonblank.dropBlank {buffer : Buffer} (solid : buffer.HasNonblank) :
    buffer.dropBlank.HasNonblank := by
  obtain ⟨c, member, visible⟩ := solid
  rw [Buffer.dropBlank]
  split
  · rename_i rest ends
    rw [ends] at member
    rcases List.mem_cons.mp member with rfl | inside
    · exact absurd rfl visible
    · exact ⟨c, inside, visible⟩
  · exact ⟨c, member, visible⟩

/-- Texts behind one another in a buffer. -/
theorem append_toList_append (old new : Buffer) (text : List Char) :
    (old.append new.toList).append text = old.append (new.append text).toList := by
  simp [append, toList]

/-- A text that is not all blanks gives back a blank of its own. -/
theorem dropBlank_append_toList (old : Buffer) {new : Buffer} (solid : new.HasNonblank) :
    (old.append new.toList).dropBlank = old.append new.dropBlank.toList := by
  obtain ⟨c, member, -⟩ := solid
  rcases new with ⟨_ | ⟨last, rest⟩⟩
  · exact absurd member List.not_mem_nil
  · by_cases blank : last = ' '
    · subst blank
      simp [dropBlank, append, toList]
    · simp [dropBlank, append, toList, blank]

end Buffer

/-- What a formatter has done, behind what another one did before. The depth is that of the later
one. -/
def Formatter.followedBy (old new : Formatter) : Formatter where
  buffer := old.buffer.append new.buffer.toList
  parameters := old.parameters ++ new.parameters
  depth := new.depth
  events := old.events ++ new.events

def Outcome.behind {α : Type} (old : Formatter) (outcome : Outcome α) : Outcome α :=
  (outcome.1, old.followedBy outcome.2)

/-- Sequences can be moved behind another formatter part by part. -/
theorem Outcome.behind_andThen {α β : Type} (old : Formatter) (outcome : Outcome α)
    {next : α → Formatter → Outcome β}
    (rest : ∀ a g, outcome = (.ok a, g) → next a (old.followedBy g) = (next a g).behind old) :
    (outcome.behind old).andThen next = (outcome.andThen next).behind old := by
  rcases outcome with ⟨error | a, g⟩
  · rfl
  · exact rest a g rfl

/-! ## Actions that keep to themselves -/

namespace Action

def takesBack : Action → Bool
  | .dropBlank => true
  | .newLine _ => true
  | _ => false

/-- Whether some actions write a character that is no blank, or give up, before they take anything
back. -/
def opens : List Action → Bool
  | .write s :: rest => s.toList.any (· ≠ ' ') || opens rest
  | .identifier _ :: _ => true
  | .placeholder _ :: _ => true
  | .report _ :: rest => opens rest
  | .fail _ :: _ => true
  | _ => false

theorem opens_append {first : List Action} (opened : opens first = true) (rest : List Action) :
    opens (first ++ rest) = true := by
  induction first with
  | nil => cases opened
  | cons action first ih =>
    cases action with
    | write s =>
      simp only [opens, Bool.or_eq_true] at opened
      simp only [List.cons_append, opens, Bool.or_eq_true]
      exact opened.imp_right ih
    | report => exact ih opened
    | identifier | placeholder | fail => rfl
    | dropBlank | newLine => cases opened

variable {style : Style}

/-- Behind a text of its own an action does what it does anywhere. -/
theorem apply_followedBy (old : Formatter) {new : Formatter} {action : Action}
    (ready : new.buffer.HasNonblank ∨ action.takesBack = false) :
    action.apply style (old.followedBy new) = (action.apply style new).behind old := by
  cases action with
  | write | identifier | placeholder | report | fail =>
    simp [apply, Formatter.followedBy, Outcome.behind, Buffer.append_toList_append]
  | dropBlank =>
    have solid : new.buffer.HasNonblank := ready.resolve_right (by decide)
    simp [apply, Formatter.followedBy, Outcome.behind, Buffer.dropBlank_append_toList _ solid]
  | newLine shift =>
    have solid : new.buffer.HasNonblank := ready.resolve_right (by simp [takesBack])
    have depth : (old.followedBy new).depth = new.depth := rfl
    rw [apply, apply, depth]
    cases Formatter.shiftDepth shift new.depth with
    | none => rfl
    | some deeper =>
      by_cases beautify : style.options.beautify = true
      · simp [Formatter.followedBy, Outcome.behind, beautify,
          Buffer.dropBlank_append_toList _ solid, Buffer.append_toList_append]
      · simp [Formatter.followedBy, Outcome.behind, beautify]

/-- What is written stays, apart from blanks. -/
theorem apply_hasNonblank {new g : Formatter} {action : Action} (solid : new.buffer.HasNonblank)
    (success : action.apply style new = (.ok (), g)) : g.buffer.HasNonblank := by
  cases action with
  | write | identifier | placeholder =>
    cases success
    exact solid.append _
  | dropBlank =>
    cases success
    exact solid.dropBlank
  | report =>
    cases success
    exact solid
  | newLine shift =>
    rw [apply] at success
    split at success
    · cases success
    · cases success
      dsimp only
      split
      · exact solid.dropBlank.append _
      · exact solid
  | fail => cases success

/-- Actions that open have written more than blanks after the first of them, or open after it. -/
theorem apply_opens (visible : ∀ name, ∃ c ∈ (style.quoteIdentifier name).toList, c ≠ ' ')
    {new g : Formatter} {action : Action} {rest : List Action}
    (opened : opens (action :: rest) = true) (success : action.apply style new = (.ok (), g)) :
    g.buffer.HasNonblank ∨ opens rest = true := by
  cases action with
  | write s =>
    cases success
    simp only [opens, Bool.or_eq_true, List.any_eq_true, decide_eq_true_eq] at opened
    refine opened.imp_left ?_
    rintro ⟨c, member, solid⟩
    exact Buffer.hasNonblank_append_of_mem member solid _
  | identifier name =>
    cases success
    obtain ⟨c, member, solid⟩ := visible name
    exact .inl (Buffer.hasNonblank_append_of_mem member solid _)
  | placeholder =>
    cases success
    have mark : '?' ∈ "? ".toList := by decide
    exact .inl (Buffer.hasNonblank_append_of_mem mark (by decide) _)
  | report => exact .inr opened
  | fail => cases success
  | dropBlank | newLine => cases opened

/-- Actions that open do not start by taking something back. -/
theorem takesBack_of_opens {action : Action} {rest : List Action}
    (opened : opens (action :: rest) = true) : action.takesBack = false := by
  cases action with
  | dropBlank | newLine => cases opened
  | _ => rfl

/-- A run that writes more than blanks before it takes anything back does the same behind any other
text, and ends with the same result. -/
theorem exec_followedBy (visible : ∀ name, ∃ c ∈ (style.quoteIdentifier name).toList, c ≠ ' ')
    (old : Formatter) {new : Formatter} {actions : List Action}
    (ready : new.buffer.HasNonblank ∨ opens actions = true) :
    exec style actions (old.followedBy new) = (exec style actions new).behind old := by
  induction actions generalizing new with
  | nil => rfl
  | cons action rest ih =>
    have first : action.apply style (old.followedBy new) = (action.apply style new).behind old :=
      apply_followedBy old (ready.imp_right takesBack_of_opens)
    rw [exec, exec, first]
    refine Outcome.behind_andThen old _ fun _ g success => ih ?_
    rcases ready with solid | opened
    · exact .inl (apply_hasNonblank solid success)
    · exact apply_opens visible opened success

end Action

/-! ## Scripts of trees -/

namespace Script

variable (flavor : Flavor)

/-- Whether a script writes a character that is no blank before it takes anything back. -/
def opens (script : Script) : Bool :=
  Action.opens (actions flavor script)

theorem opens_append {first : Script} (opened : opens flavor first = true) (rest : Script) :
    opens flavor (first ++ rest) = true := by
  rw [opens, actions_append]
  exact Action.opens_append opened _

theorem opens_text (s : String) (rest : Script) (visible : s.toList.any (· ≠ ' ') = true) :
    opens flavor (.text s :: rest) = true := by
  simp only [opens, actions_cons, Step.actions, List.singleton_append, Action.opens, visible,
    Bool.true_or]

/-- A text without visible characters, such as an empty name, changes nothing. -/
theorem opens_text_cons (s : String) {rest : Script} (opened : opens flavor rest = true) :
    opens flavor (.text s :: rest) = true := by
  simp only [opens, actions_cons, Step.actions, List.singleton_append, Action.opens,
    Bool.or_eq_true]
  exact .inr opened

theorem opens_group (script : Script) : opens flavor (group script) = true :=
  opens_text flavor "(" _ (by decide)

theorem opens_operand (node : Scalar) {script : Script} (opened : opens flavor script = true) :
    opens flavor (operand node script) = true := by
  rw [operand]
  split
  · exact opens_group flavor script
  · exact opened

theorem opens_nested (query : Script) : opens flavor (nested query) = true :=
  opens_text flavor "(" _ (by decide)

theorem opens_column (c : Column) : opens flavor (column c) = true := by
  rcases c with ⟨_ | table, name, type⟩ <;> rfl

/-- A quoted name opens, and there is always one. -/
theorem opens_tableName (t : Table) : opens flavor (tableName t) = true := by
  rcases t with ⟨name, aliasName, _ | catalog, _ | schema⟩ <;> rfl

theorem opens_insertHead (t : Table) (columns : List Column) :
    opens flavor (insertHead t columns) = true := by
  refine opens_append flavor (opens_append flavor (opens_append flavor ?_ _) _) _
  exact opens_text flavor _ _ (by decide)

/-- An extension node opens like its usual form; where it is refused, nothing is written. -/
theorem opens_extension (node : Extension) {usual : Script} (opened : opens flavor usual = true) :
    opens flavor [.extension node usual] = true := by
  rw [opens, actions_cons, Step.actions, actions_nil, List.append_nil, Action.opens]
  split
  · exact opened
  · rfl

/-- Giving up counts as opening, since nothing is taken back after it. -/
theorem opens_checked (check : Except Error Unit) (event : Error → Event) {script : Script}
    (opened : opens flavor script = true) : opens flavor (checked check event script) = true := by
  cases check with
  | ok => exact opened
  | error => rfl

end Script

open Script

/-- What writing makes of a tree opens, if it is one script. -/
def Written.Opens (flavor : Flavor) : (c : Category) → Written c → Prop
  | .assignment, _ => True
  | .list _, _ => True
  | .option _, _ => True
  | .scalar, script => opens flavor script = true
  | .source, script => opens flavor script = true
  | .query, script => opens flavor script = true
  | .order, script => opens flavor script = true
  | .extension, script => opens flavor script = true
  | .statement, script => opens flavor script = true

/-- The script of a tree writes a character that is no blank before it takes anything back. -/
theorem Tree.opens_script (flavor : Flavor) {c : Category} (tree : Tree c) :
    Written.Opens flavor c tree.script := by
  induction tree with
  | column node => exact opens_column flavor node.value
  | argument => rfl
  | declare _ _ _ ih => exact opens_append flavor ih _
  | binary _ _ left _ _ ih =>
    exact opens_append flavor (opens_append flavor (opens_operand flavor left ih) _) _
  | unary _ op inner _ ih =>
    change opens flavor (if op.followsOperand then _ else _) = true
    split
    · exact opens_append flavor (opens_operand flavor inner ih) _
    · exact opens_append flavor (opens_text flavor _ _ (by cases op <;> decide)) _
  | between _ expr _ _ _ ih =>
    iterate 5 refine opens_append flavor ?_ _
    exact opens_operand flavor expr ih
  | inValues _ left _ _ ih | inQuery _ left _ _ ih =>
    iterate 3 refine opens_append flavor ?_ _
    exact opens_operand flavor left ih
  | existsQuery _ _ negated =>
    refine opens_append flavor ?_ _
    cases negated with
    | false => exact opens_text flavor _ _ (by decide)
    | true => exact opens_append flavor (opens_text flavor _ _ (by decide)) _
  | aggregate _ function => exact opens_text flavor _ _ (by cases function <;> decide)
  | call _ name => exact opens_text_cons flavor name (opens_group flavor _)
  | cast => exact opens_text flavor "CAST(" _ (by decide)
  | scalarExtension node ih | sourceExtension node ih | extensionStatement node ih =>
    exact opens_extension flavor node ih
  | table node => exact opens_append flavor (opens_tableName flavor node.value) _
  | join _ _ _ _ _ ih => exact opens_append flavor (opens_append flavor ih _) _
  | subquery => exact opens_append flavor (opens_nested flavor _) _
  | select =>
    iterate 8 refine opens_append flavor ?_ _
    exact opens_text flavor _ _ (by decide)
  | union =>
    iterate 4 refine opens_append flavor ?_ _
    exact opens_nested flavor _
  | order _ _ _ ih => exact opens_append flavor ih _
  | naturalJoin _ _ _ ih => exact opens_append flavor ih _
  | matchAgainst => exact opens_text flavor "MATCH " _ (by decide)
  | ilike _ left _ ih =>
    exact opens_append flavor (opens_append flavor (opens_operand flavor left ih) _) _
  | duplicateKeyUpsert =>
    exact opens_append flavor (opens_append flavor (opens_insertHead flavor _ _) _) _
  | bulkInsert =>
    exact opens_checked flavor _ _ (opens_append flavor (opens_insertHead flavor _ _) _)
  | conflictUpsert =>
    exact opens_checked flavor _ _
      (opens_append flavor (opens_append flavor (opens_insertHead flavor _ _) _) _)
  | foreign => rfl
  | queryStatement _ ih | scalarStatement _ ih | sourceStatement _ ih => exact ih
  | insert => exact opens_append flavor (opens_insertHead flavor _ _) _
  | insertFromQuery =>
    iterate 3 refine opens_append flavor ?_ _
    exact opens_text flavor _ _ (by decide)
  | update =>
    iterate 4 refine opens_append flavor ?_ _
    exact opens_text flavor _ _ (by decide)
  | delete =>
    iterate 2 refine opens_append flavor ?_ _
    exact opens_text flavor _ _ (by decide)
  | assign | nil | cons | absent | present => trivial

end SqlTree
