import SqlTree.Proofs.Script.Offers

/-!
# Calls of a dialect's hooks

A dialect that writes extension nodes without entering them is given by two hooks. The one for
extension nodes is an arbitrary operation of a formatter. The one for the pages of queries may also
use the formatter it is handed to visit statements of its own, and so make the formatter call both
hooks again; a `PageHook` says what it does move by move, since nothing of this could be seen in an
operation of a formatter.

`Script.observe` runs a script under such a dialect and writes down every call of a hook with its
answer, the calls made by page hooks included. This changes nothing else (`Script.observe_outcome`).
-/

namespace SqlTree

/-! ## Hooks -/

/-- What the page hook of a dialect does with the formatter it is handed. -/
inductive PageHook where
  | done (answer : Except Error Unit)
  | look (next : Style → Formatter → PageHook)
  | put (f : Formatter) (next : PageHook)
  /-- Lets the formatter visit a statement, and goes on with the result. If the statement has pages
  the formatter calls the hook again: `pages` is what it does then. -/
  | visit (statement : Statement) (pages : Query → PageHook)
      (next : Except Error Unit → PageHook)
  /-- Calls the hook for extension nodes itself, so that nobody checks the node that is handed
  back. -/
  | call (node : Extension) (next : Except Error Extension → PageHook)

/-- The hooks of a dialect that does not enter the extension nodes it writes. -/
structure DialectHooks where
  name : String
  quote : Char := '"'
  quoteIdentifier : String → String := Quoted.encode quote
  writeExtension : Extension → FormatM Extension
  page : Query → PageHook

def DialectHooks.dialectWith (hooks : DialectHooks) (writePage : Query → FormatM Unit) :
    Dialect where
  name := hooks.name
  quote := hooks.quote
  quoteIdentifier := hooks.quoteIdentifier
  writeExtension node _ := hooks.writeExtension node
  writePage

/-- Performs an operation and returns its result, also if it is an error. -/
def Formatter.attempt {α : Type} (operation : FormatM α) : FormatM (Except Error α) :=
  fun style => ExceptT.mk (Except.ok <$> (operation.run style).run)

def PageHook.run (hooks : DialectHooks) : PageHook → FormatM Unit
  | done answer => ofExcept answer
  | look next => do
    let style ← read
    let f ← get
    (next style f).run hooks
  | put f next => do
    set f
    next.run hooks
  | visit statement pages next => do
    let dialect := hooks.dialectWith fun query => (pages query).run hooks
    let result ← Formatter.attempt (Script.run dialect statement.script)
    (next result).run hooks
  | call node next => do
    let answer ← Formatter.attempt (hooks.writeExtension node)
    (next answer).run hooks

def DialectHooks.dialect (hooks : DialectHooks) : Dialect :=
  hooks.dialectWith fun query => (hooks.page query).run hooks

namespace PageHook

/-- The hook ends with an error, and makes no call before. -/
def EndsWith (error : Error) : PageHook → Prop
  | done answer => answer = .error error
  | look next => ∀ style f, (next style f).EndsWith error
  | put _ next => next.EndsWith error
  | visit .. => False
  | call .. => False

/-- The hook reaches extension nodes by visits only, and ends with the error of a visit that has
failed. -/
def PassesErrorsOn : PageHook → Prop
  | done _ => True
  | look next => ∀ style f, (next style f).PassesErrorsOn
  | put _ next => next.PassesErrorsOn
  | visit _ pages next =>
    (∀ query, (pages query).PassesErrorsOn) ∧ (next (.ok ())).PassesErrorsOn ∧
      ∀ error, (next (.error error)).EndsWith error
  | call .. => False

end PageHook

/-! ## Calls -/

/-- A call of a hook, with its answer. -/
inductive HookCall where
  | extension (node : Extension) (answer : Except Error Extension)
  | page (query : Query) (answer : Except Error Unit)

namespace HookCall

def given : HookCall → Offer
  | extension node _ => .extension node
  | page query _ => .page query

/-- What follows from the answer: a node that is handed back has to be the one that was given. -/
def verdict : HookCall → Except Error Unit
  | extension node (.ok returned) =>
    if returned.id? = node.id? then .ok () else .error (.treeModified node.kind)
  | extension _ (.error error) => .error error
  | page _ answer => answer

end HookCall

/-- A call that the formatter makes for a step of a script, with the calls inside it. Only a page
hook makes any. -/
inductive Round where
  | extension (node : Extension) (answer : Except Error Extension)
  | page (query : Query) (answer : Except Error Unit) (inside : List HookCall)

namespace Round

def call : Round → HookCall
  | extension node answer => .extension node answer
  | page query answer _ => .page query answer

/-- All calls of a round, in the order in which they begin. -/
def calls : Round → List HookCall
  | extension node answer => [.extension node answer]
  | page query answer inside => .page query answer :: inside

end Round

/-! ## Observing a run -/

section Observe

variable (dialect : Dialect) (options : FormatOptions)
  (page : Query → Formatter → Outcome Unit × List HookCall)

/-- Runs a step, and writes down the call of a hook. The calls inside a page are those that `page`
tells of. -/
def Step.observe (f : Formatter) : Step → Outcome Unit × List Round
  | .page query =>
    let written := page query f
    (written.1, [.page query written.1.1 written.2])
  | .extension node usual =>
    let routed := { f with events := f.events.push (.routed dialect.name node.kind) }
    let written : Outcome Extension :=
      routed.perform dialect options (dialect.writeExtension node (Script.run dialect usual))
    let checked := written.andThen fun returned g =>
      g.perform dialect options (Formatter.ensureSame node returned)
    (checked, [.extension node written.1])
  | step => (f.perform dialect options (step.run dialect), [])

def Script.observe (f : Formatter) : List Step → Outcome Unit × List Round
  | [] => ((.ok (), f), [])
  | step :: rest =>
    match step.observe dialect options page f with
    | ((.ok (), g), rounds) =>
      let further := Script.observe g rest
      (further.1, rounds ++ further.2)
    | ((.error error, g), rounds) => ((.error error, g), rounds)

variable {dialect options page}

/-- Observing a step does not change it, if observing pages does not. -/
theorem Step.observe_outcome
    (pages : ∀ query f, (page query f).1 = f.perform dialect options (dialect.writePage query))
    (f : Formatter) (step : Step) :
    (step.observe dialect options page f).1 = f.perform dialect options (step.run dialect) := by
  cases step with
  | page query => exact pages query f
  | extension node usual =>
    simp only [Step.run, Formatter.perform_bind, Formatter.perform_read, Outcome.andThen_ok]
    rfl
  | _ => rfl

/-- Observing a run does not change it. -/
theorem Script.observe_outcome
    (pages : ∀ query f, (page query f).1 = f.perform dialect options (dialect.writePage query))
    (f : Formatter) (script : Script) :
    (Script.observe dialect options page f script).1 =
      f.perform dialect options (Script.run dialect script) := by
  induction script generalizing f with
  | nil => rfl
  | cons step rest ih =>
    rw [Script.run, Formatter.perform_bind, ← step.observe_outcome pages, Script.observe]
    rcases step.observe dialect options page f with ⟨⟨error | _, g⟩, rounds⟩
    · rfl
    · exact ih g

end Observe

namespace PageHook

variable (hooks : DialectHooks) (options : FormatOptions)

/-- Runs a page hook, and writes down the calls that are made meanwhile. -/
def observe : PageHook → Formatter → Outcome Unit × List HookCall
  | done answer, f => ((answer, f), [])
  | look next, f => (next (hooks.dialect.style options) f).observe f
  | put g next, _ => next.observe g
  | visit statement pages next, f =>
    let dialect := hooks.dialectWith fun query => (pages query).run hooks
    let visited :=
      Script.observe dialect options (fun query => (pages query).observe) f statement.script
    let further := (next visited.1.1).observe visited.1.2
    (further.1, visited.2.flatMap Round.calls ++ further.2)
  | call node next, f =>
    let written := f.perform hooks.dialect options (hooks.writeExtension node)
    let further := (next written.1).observe written.2
    (further.1, .extension node written.1 :: further.2)

/-- Observing a page hook does not change it, by induction on its moves; the pages inside a visit
are hooks again. -/
theorem observe_outcome (hook : PageHook) (f : Formatter) :
    (hook.observe hooks options f).1 = f.perform hooks.dialect options (hook.run hooks) := by
  induction hook generalizing f with
  | done answer => cases answer <;> rfl
  | look next ih => exact ih (hooks.dialect.style options) f f
  | put g next ih => exact ih g
  | visit statement pages next ihPages ih =>
    let dialect := hooks.dialectWith fun query => (pages query).run hooks
    have agrees (query : Query) (g : Formatter) :
        ((pages query).observe hooks options g).1 =
          g.perform dialect options (dialect.writePage query) :=
      ihPages query g
    have visited := Script.observe_outcome agrees f statement.script
    refine (ih _ _).trans ?_
    rw [visited]
    rfl
  | call node next ih => exact ih _ _

end PageHook

end SqlTree
