import SqlTree.Dialect.Flavor
import SqlTree.Format.Statement
import SqlTree.Proofs.Tree.Form

/-!
# Scripts as flat lists of actions

Under a built-in dialect a script comes down to a flat list of actions: the page of a query is
spelled out, an extension node is announced and then replaced by its usual form or by a failure.
`Action.exec` performs such a list as a plain function on the state of a formatter, and
`perform_script` says that running the script is nothing else.
-/

namespace SqlTree

/-! ## Operations of a formatter as functions on its state -/

/-- What an operation leaves behind: a result or an error, and the state of the formatter. -/
abbrev Outcome (α : Type) := Except Error α × Formatter

namespace Outcome

variable {α β γ : Type}

/-- Goes on from a success, and stops at an error. -/
def andThen (outcome : Outcome α) (next : α → Formatter → Outcome β) : Outcome β :=
  match outcome with
  | (.ok a, g) => next a g
  | (.error error, g) => (.error error, g)

@[simp]
theorem andThen_ok (a : α) (g : Formatter) (next : α → Formatter → Outcome β) :
    andThen (.ok a, g) next = next a g :=
  rfl

@[simp]
theorem andThen_error (error : Error) (g : Formatter) (next : α → Formatter → Outcome β) :
    andThen (.error error, g) next = (.error error, g) :=
  rfl

/-- Sequences may be taken apart anywhere. -/
theorem andThen_assoc (outcome : Outcome α) (next : α → Formatter → Outcome β)
    (last : β → Formatter → Outcome γ) :
    (outcome.andThen next).andThen last = outcome.andThen fun a g => (next a g).andThen last := by
  rcases outcome with ⟨_ | a, g⟩ <;> rfl

/-- A sequence that succeeds succeeded in both of its parts. -/
theorem andThen_eq_ok {outcome : Outcome α} {next : α → Formatter → Outcome β} {b : β}
    {h : Formatter} (success : outcome.andThen next = (.ok b, h)) :
    ∃ a g, outcome = (.ok a, g) ∧ next a g = (.ok b, h) := by
  rcases outcome with ⟨error | a, g⟩
  · cases success
  · exact ⟨a, g, rfl, success⟩

end Outcome

namespace Formatter

variable {α β : Type} (f : Formatter) (dialect : Dialect) (options : FormatOptions)

theorem perform_pure (a : α) : f.perform dialect options (pure a) = (.ok a, f) :=
  rfl

theorem perform_get : f.perform dialect options get = (.ok f, f) :=
  rfl

theorem perform_read : f.perform dialect options read = (.ok (dialect.style options), f) :=
  rfl

theorem perform_modify (change : Formatter → Formatter) :
    f.perform dialect options (modify change) = (.ok (), change f) :=
  rfl

/-- The state that an error leaves behind is kept. -/
theorem perform_bind (first : FormatM α) (next : α → FormatM β) :
    f.perform dialect options (first >>= next) =
      Outcome.andThen (f.perform dialect options first)
        fun a g => g.perform dialect options (next a) := by
  simp only [perform, ReaderT.run_bind, ExceptT.run_bind, StateT.run_bind, Outcome.andThen]
  rcases ((first.run (dialect.style options)).run).run f with ⟨_ | a, g⟩ <;> rfl

end Formatter

/-! ## Actions -/

inductive Action where
  | write (s : String)
  | identifier (name : String)
  | dropBlank
  | newLine (shift : Shift)
  | placeholder (argument : Argument)
  | report (event : Event)
  | fail (error : Error)
  deriving DecidableEq

namespace Action

def apply (style : Style) (f : Formatter) : Action → Outcome Unit
  | .write s => (.ok (), { f with buffer := f.buffer.append s.toList })
  | .identifier name =>
    (.ok (), { f with buffer := f.buffer.append (style.quoteIdentifier name).toList })
  | .dropBlank => (.ok (), { f with buffer := f.buffer.dropBlank })
  | .newLine shift =>
    match Formatter.shiftDepth shift f.depth with
    | none => (.error .indentUnderflow, f)
    | some depth =>
      (.ok (),
        { f with
          depth
          buffer :=
            if style.options.beautify then
              f.buffer.dropBlank.append
                ('\n' :: .replicate (style.options.indentWidth depth) ' ')
            else f.buffer })
  | .placeholder argument =>
    (.ok (),
      { f with
        buffer := f.buffer.append "? ".toList
        parameters := f.parameters.push argument })
  | .report event => (.ok (), { f with events := f.events.push event })
  | .fail error => (.error error, f)

/-- What a list of actions does to a formatter, up to the first one that fails. -/
def exec (style : Style) : List Action → Formatter → Outcome Unit
  | [], f => (.ok (), f)
  | action :: rest, f => (action.apply style f).andThen fun _ g => exec style rest g

/-- Actions up to the first failure, wherever a list of them is divided. -/
theorem exec_append (style : Style) (first rest : List Action) (f : Formatter) :
    exec style (first ++ rest) f =
      (exec style first f).andThen fun _ g => exec style rest g := by
  induction first generalizing f with
  | nil => rfl
  | cons action first ih => simp only [List.cons_append, exec, Outcome.andThen_assoc, ih]

end Action

def Flavor.pageActions (flavor : Flavor) (page : Page) : List Action :=
  match flavor with
  | .mysql =>
    [.write "LIMIT ", .placeholder page.offsetArgument, .dropBlank, .write ", ",
      .placeholder page.limitArgument]
  | _ =>
    [.write "OFFSET ", .placeholder page.offsetArgument, .write "LIMIT ",
      .placeholder page.limitArgument]

mutual

def Step.actions (flavor : Flavor) : Step → List Action
  | .text s => [.write s]
  | .identifier name => [.identifier name]
  | .dropBlank => [.dropBlank]
  | .newLine shift => [.newLine shift]
  | .placeholder argument => [.placeholder argument]
  | .page query => flavor.pageActions query.page
  | .extension node usual =>
    .report (.routed flavor.name node.kind)
      :: if flavor.owns node then Script.actions flavor usual
        else [.fail (.unsupportedNode node.kind)]
  | .refuse error => [.fail error]
  | .reject event error => [.report event, .fail error]

/-- The actions that a script comes down to. -/
def Script.actions (flavor : Flavor) : List Step → List Action
  | [] => []
  | step :: rest => step.actions flavor ++ Script.actions flavor rest

end

namespace Script

variable (flavor : Flavor)

@[simp]
theorem actions_nil : actions flavor [] = [] :=
  rfl

@[simp]
theorem actions_cons (step : Step) (rest : Script) :
    actions flavor (step :: rest) = step.actions flavor ++ actions flavor rest :=
  rfl

@[simp]
theorem actions_append (first rest : Script) :
    actions flavor (first ++ rest) = actions flavor first ++ actions flavor rest := by
  induction first with
  | nil => rfl
  | cons step first ih => simp [ih]

end Script

/-! ## Running a script is performing its actions -/

section Run

variable (flavor : Flavor) (options : FormatOptions)

/-- A line break shifts the depth first, and breaks the line only when it beautifies. -/
theorem perform_newLine (f : Formatter) (shift : Shift) :
    f.perform flavor.dialect options (Formatter.newLine shift) =
      Action.apply (flavor.dialect.style options) f (.newLine shift) := by
  simp only [Formatter.newLine, Formatter.perform_bind, Formatter.perform_get, Outcome.andThen_ok,
    Action.apply]
  cases Formatter.shiftDepth shift f.depth with
  | none => rfl
  | some depth =>
    simp only [Formatter.perform_bind, Formatter.perform_modify, Formatter.perform_read,
      Outcome.andThen_ok]
    cases beautify : (flavor.dialect.style options).options.beautify with
    | false => rfl
    | true => rfl

/-- A page may be written in the way of another flavor. -/
theorem perform_page (way : Flavor) (f : Formatter) (query : Query) :
    f.perform flavor.dialect options (way.writePage query) =
      Action.exec (flavor.dialect.style options) (way.pageActions query.page) f := by
  cases way <;> rfl

/-- A node that is handed back passes the check. -/
theorem perform_ensureSame (f : Formatter) (node : Extension) :
    f.perform flavor.dialect options (Formatter.ensureSame node node) = (.ok (), f) := by
  simp only [Formatter.ensureSame, Tree.same_self]
  rfl

/-- A node that the flavor owns is written in its usual form and passes the check of its identity;
any other node is refused. -/
theorem perform_writeExtension (f : Formatter) (node : Extension) (usual : FormatM Unit) :
    Outcome.andThen (f.perform flavor.dialect options (flavor.writeExtension node usual))
        (fun returned g => g.perform flavor.dialect options (Formatter.ensureSame node returned)) =
      if flavor.owns node then f.perform flavor.dialect options usual
      else (.error (.unsupportedNode node.kind), f) := by
  by_cases owned : flavor.owns node = true
  · simp only [Flavor.writeExtension, owned, if_true, Formatter.perform_bind,
      Formatter.perform_pure, Outcome.andThen_assoc, Outcome.andThen_ok, perform_ensureSame]
    rcases f.perform flavor.dialect options usual with ⟨_ | _, g⟩ <;> rfl
  · rw [Flavor.writeExtension, if_neg owned, if_neg owned]
    rfl

mutual

/-- Running a step under a built-in dialect is performing its actions. -/
theorem perform_step (step : Step) (f : Formatter) :
    f.perform flavor.dialect options (step.run flavor.dialect) =
      Action.exec (flavor.dialect.style options) (step.actions flavor) f := by
  cases step with
  | text s => rfl
  | identifier name => rfl
  | dropBlank => rfl
  | newLine shift =>
    rw [Step.run, perform_newLine, Step.actions, Action.exec]
    rcases Action.apply _ f (.newLine shift) with ⟨_ | _, g⟩ <;> rfl
  | placeholder argument => rfl
  | page query => exact perform_page flavor options flavor f query
  | extension node usual =>
    simp only [Step.run, Formatter.perform_bind, Formatter.perform_read, Outcome.andThen_ok]
    rw [Formatter.report, Formatter.perform_modify, Outcome.andThen_ok]
    refine (perform_writeExtension flavor options _ node _).trans ?_
    rw [perform_script usual, Step.actions, Action.exec, Action.apply, Outcome.andThen_ok]
    cases flavor.owns node <;> rfl
  | refuse error => rfl
  | reject event error => rfl

/-- Running a script under a built-in dialect is performing its actions. -/
theorem perform_script (script : Script) (f : Formatter) :
    f.perform flavor.dialect options (Script.run flavor.dialect script) =
      Action.exec (flavor.dialect.style options) (Script.actions flavor script) f := by
  match script with
  | [] => rfl
  | step :: rest =>
    rw [Script.run, Formatter.perform_bind, perform_step step f, Script.actions_cons,
      Action.exec_append]
    congr
    funext _ g
    exact perform_script rest g

end

end Run

/-! ## Formats that succeed -/

/-- A format that succeeds has performed the actions of the statement's script. -/
theorem format_ok {flavor : Flavor} {options : FormatOptions} {statement : Statement}
    {formatted : Formatted} (success : format flavor.dialect options statement = .ok formatted) :
    ∃ f, Action.exec (flavor.dialect.style options) (Script.actions flavor statement.script) {} =
      (.ok (), f) ∧ formatted = f.result := by
  rw [format, formatWithState, Formatter.formatStatement, Formatter.perform_bind,
    perform_script] at success
  rcases ran : Action.exec (flavor.dialect.style options)
    (Script.actions flavor statement.script) {} with ⟨_ | _, f⟩
  · rw [ran] at success
    cases success
  · rw [ran] at success
    cases success
    exact ⟨f, rfl, rfl⟩

/-- A result that can be read off a format is what the format returned. -/
theorem format_eq_ok {dialect : Dialect} {options : FormatOptions} {statement : Statement}
    {formatted : Formatted}
    (read : (format dialect options statement).toOption = some formatted) :
    format dialect options statement = .ok formatted := by
  cases outcome : format dialect options statement with
  | error error => simp [outcome, Except.toOption] at read
  | ok result =>
    rw [outcome] at read
    exact congrArg Except.ok (Option.some.inj read)

end SqlTree
