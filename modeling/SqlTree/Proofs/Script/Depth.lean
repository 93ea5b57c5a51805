import SqlTree.Proofs.Script.Pieces
import SqlTree.Proofs.Tree.Signal

/-!
# Depth

Every line break that goes one level out answers one that went one level in. So the script of a tree
never goes above the level where it starts and ends at that level, and nothing but an error of its
own stops it: what running a script returns can be read off its trace.
-/

namespace SqlTree

namespace Action

/-- The depth behind some actions that start at a given one, if they never go above the outermost
level. -/
def level : List Action → Nat → Option Nat
  | [], depth => some depth
  | .newLine shift :: rest, depth => (Formatter.shiftDepth shift depth).bind (level rest)
  | _ :: rest, depth => level rest depth

/-- The depth is passed on from action to action. -/
theorem level_append (first rest : List Action) (depth : Nat) :
    level (first ++ rest) depth = (level first depth).bind (level rest) := by
  induction first generalizing depth with
  | nil => rfl
  | cons action first ih =>
    cases action with
    | newLine shift =>
      simp only [List.cons_append, level]
      cases Formatter.shiftDepth shift depth with
      | none => rfl
      | some deeper => exact ih deeper
    | _ => exact ih depth

end Action

/-- What actions with a trace return, if no line break fails. -/
def Trace.result (trace : Trace) : Except Error Unit :=
  match trace.error with
  | none => .ok ()
  | some error => .error error

theorem Trace.result_append {first : Trace} (going : first.error = none) (rest : Trace) :
    (first ++ rest).result = rest.result := by
  rw [append_of_going going]
  rfl

/-- Actions whose line breaks stay within the levels there are return what their trace says. -/
theorem Action.exec_of_level {style : Style} {actions : List Action} {f : Formatter} {depth : Nat}
    (stays : level actions f.depth = some depth) :
    (exec style actions f).1 = (traceAll actions).result := by
  induction actions generalizing f with
  | nil => rfl
  | cons action rest ih =>
    cases action with
    | newLine shift =>
      rw [level] at stays
      obtain ⟨deeper, shifted, stays⟩ := Option.bind_eq_some_iff.mp stays
      rw [exec, apply, shifted, Outcome.andThen_ok, traceAll, Trace.result_append rfl]
      exact ih stays
    | fail error => rfl
    | write | identifier | dropBlank | placeholder | report =>
      rw [traceAll, Trace.result_append rfl]
      exact ih stays

/-- Such actions report what their trace says, also if they fail. -/
theorem Action.events_exec_of_level {style : Style} {actions : List Action} {f : Formatter}
    {depth : Nat} (stays : level actions f.depth = some depth) :
    (exec style actions f).2.events.toList = f.events.toList ++ (traceAll actions).events := by
  induction actions generalizing f with
  | nil => exact (List.append_nil _).symm
  | cons action rest ih =>
    cases action with
    | newLine shift =>
      rw [level] at stays
      obtain ⟨deeper, shifted, stays⟩ := Option.bind_eq_some_iff.mp stays
      rw [exec, apply, shifted, Outcome.andThen_ok, traceAll, Trace.append_of_going rfl]
      exact ih stays
    | fail error => exact (List.append_nil _).symm
    | report event =>
      have reported := ih (f := { f with events := f.events.push event }) stays
      rw [exec, apply, Outcome.andThen_ok, reported, Array.toList_push, List.append_assoc]
      rfl
    | write | identifier | dropBlank | placeholder =>
      rw [traceAll, Trace.append_of_going rfl]
      exact ih stays

/-! ## DepthNeutral scripts -/

namespace Script

variable (flavor : Flavor)

/-- A script ends at the depth where it starts, and never goes above it. -/
def DepthNeutral (script : Script) : Prop :=
  ∀ depth, Action.level (actions flavor script) depth = some depth

variable {flavor} {script rest : Script}

/-- A depth-neutral script returns what its trace says. -/
theorem DepthNeutral.result (neutral : DepthNeutral flavor script) (options : FormatOptions)
    (f : Formatter) :
    (f.perform flavor.dialect options (Script.run flavor.dialect script)).1 =
      (trace flavor script).result := by
  rw [perform_script]
  exact Action.exec_of_level (neutral f.depth)

/-- A depth-neutral script reports what its trace says, also if it fails. -/
theorem DepthNeutral.events (neutral : DepthNeutral flavor script) (options : FormatOptions)
    (f : Formatter) :
    (f.perform flavor.dialect options (Script.run flavor.dialect script)).2.events.toList =
      f.events.toList ++ (trace flavor script).events := by
  rw [perform_script]
  exact Action.events_exec_of_level (neutral f.depth)

theorem DepthNeutral.append (first : DepthNeutral flavor script)
    (second : DepthNeutral flavor rest) : DepthNeutral flavor (script ++ rest) := by
  intro depth
  rw [actions_append, Action.level_append, first depth]
  exact second depth

/-- The brackets around a query go one level in and back out. -/
theorem DepthNeutral.nested (inside : DepthNeutral flavor script) :
    DepthNeutral flavor (nested script) := by
  intro depth
  rw [Script.nested, actions_append, actions_append, Action.level_append, Action.level_append]
  have opened : Action.level (actions flavor [.text "(", .newLine .inner]) depth =
      some (depth + 1) := rfl
  rw [opened, Option.bind_some, inside (depth + 1)]
  rfl

/-- A refused node has moved nothing. -/
theorem DepthNeutral.extension (inside : DepthNeutral flavor script) (node : Extension) :
    DepthNeutral flavor [.extension node script] := by
  intro depth
  rw [actions_cons, actions_nil, List.append_nil, Step.actions]
  change Action.level (if flavor.owns node then _ else _) depth = some depth
  split
  · exact inside depth
  · rfl

/-- All other steps leave the depth alone, whatever text they write. -/
theorem inherited_depthNeutral (flavor : Flavor) :
    Inherited (DepthNeutral flavor) fun _ => True where
  fixed _ := trivial
  nil _ := rfl
  append := .append
  text _ _ := rfl
  identifier _ _ := rfl
  dropBlank _ := rfl
  newLine _ := rfl
  placeholder _ _ := rfl
  page _ := by cases flavor <;> exact fun _ => rfl
  nested := .nested
  extension node inside := inside.extension node
  refuse _ _ := rfl
  reject _ _ _ := rfl

end Script

/-- The script of a tree ends at the depth where it starts, and never goes above it. -/
theorem Tree.depthNeutral_script (flavor : Flavor) {c : Category} (tree : Tree c) :
    Written.All (Script.DepthNeutral flavor) c tree.script :=
  tree.scriptsAll (Script.inherited_depthNeutral flavor) fun _ _ => trivial

end SqlTree
