import SqlTree.Proofs.Script.DialectHooks

/-!
# What becomes of the answers of hooks

Two things are said of the calls that are observed in a run. `Followed`: for the things on offer the
formatter makes one call each, from first to last, up to the first one whose answer is not accepted,
and the result is then that of the last call, unless a line break has gone wrong. `StopsAtRefusal`:
a call for an extension node whose answer is not accepted is the last one, and decides the result.
The second holds of the calls inside page hooks as well, if these pass errors on.
-/

namespace SqlTree

/-! ## The row of calls -/

/-- Calls of hooks for things on offer, and what comes of them. -/
inductive Followed : List Offer → List HookCall → Except Error Unit → Prop
  | done : Followed [] [] (.ok ())
  /-- A line break has gone wrong. -/
  | broken (offers : List Offer) : Followed offers [] (.error .indentUnderflow)
  | passed {offers : List Offer} {call : HookCall} {calls : List HookCall}
      {result : Except Error Unit} (accepted : call.verdict = .ok ())
      (rest : Followed offers calls result) :
      Followed (call.given :: offers) (call :: calls) result
  | refused {call : HookCall} {error : Error} (offers : List Offer)
      (failed : call.verdict = .error error) :
      Followed (call.given :: offers) [call] (.error error)

namespace Followed

variable {offers : List Offer} {calls : List HookCall} {result : Except Error Unit}

/-- Nothing is called for that is not on offer, and nothing is passed over. -/
theorem given_prefix (followed : Followed offers calls result) :
    calls.map HookCall.given <+: offers := by
  induction followed with
  | done => exact List.prefix_rfl
  | broken => exact List.nil_prefix
  | passed _ _ ih => exact List.prefix_cons_inj _ |>.mpr ih
  | refused offers => exact List.prefix_cons_inj _ |>.mpr List.nil_prefix

/-- In the end everything on offer has been called for. -/
theorem given_of_ok (followed : Followed offers calls result) (ended : result = .ok ()) :
    calls.map HookCall.given = offers := by
  induction followed with
  | done => rfl
  | broken => cases ended
  | passed _ _ ih => exact congrArg _ (ih ended)
  | refused => cases ended

/-- An error is that of the last call, or a line break has gone wrong. -/
theorem of_error (followed : Followed offers calls result) {error : Error}
    (ended : result = .error error) :
    error = .indentUnderflow ∨
      ∃ front call, calls = front ++ [call] ∧ call.verdict = .error error := by
  induction followed with
  | done => cases ended
  | broken => exact .inl (Except.error.inj ended).symm
  | passed accepted _ ih =>
    obtain line | ⟨front, call, rfl, failed⟩ := ih ended
    · exact .inl line
    · exact .inr ⟨_ :: front, call, rfl, failed⟩
  | refused offers failed =>
    cases ended
    exact .inr ⟨[], _, rfl, failed⟩

end Followed

/-! ## Where calls stop -/

/-- Calls that go on up to the first one for an extension node whose answer is not accepted. -/
inductive StopsAtRefusal : List HookCall → Except Error Unit → Prop
  | nil (result : Except Error Unit) : StopsAtRefusal [] result
  | page (query : Query) (answer : Except Error Unit) {calls : List HookCall}
      {result : Except Error Unit} (rest : StopsAtRefusal calls result) :
      StopsAtRefusal (.page query answer :: calls) result
  | passed {node : Extension} {answer : Except Error Extension} {calls : List HookCall}
      {result : Except Error Unit} (accepted : (HookCall.extension node answer).verdict = .ok ())
      (rest : StopsAtRefusal calls result) :
      StopsAtRefusal (.extension node answer :: calls) result
  | refused {node : Extension} {answer : Except Error Extension} {error : Error}
      (failed : (HookCall.extension node answer).verdict = .error error) :
      StopsAtRefusal [.extension node answer] (.error error)

namespace StopsAtRefusal

variable {calls calls' : List HookCall} {result result' : Except Error Unit} {node : Extension}
  {answer : Except Error Extension}

/-- After a success other calls may follow. -/
theorem append (first : StopsAtRefusal calls result) (ended : result = .ok ())
    (second : StopsAtRefusal calls' result') : StopsAtRefusal (calls ++ calls') result' := by
  induction first with
  | nil => exact second
  | page query answer _ ih => exact .page query answer (ih ended)
  | passed accepted _ ih => exact .passed accepted (ih ended)
  | refused => cases ended

/-- After a success no call for an extension node was refused. -/
theorem accepted_of_ok (stops : StopsAtRefusal calls result) (ended : result = .ok ())
    (member : .extension node answer ∈ calls) :
    (HookCall.extension node answer).verdict = .ok () := by
  induction stops with
  | nil => cases member
  | page query _ _ ih =>
    obtain same | member := List.mem_cons.mp member
    · cases same
    · exact ih ended member
  | passed accepted _ ih =>
    obtain same | member := List.mem_cons.mp member
    · rw [same]
      exact accepted
    · exact ih ended member
  | refused => cases ended

/-- No hook is called after a refusal. -/
theorem last_of_refused (stops : StopsAtRefusal calls result) {front rest : List HookCall}
    {error : Error} (divided : calls = front ++ .extension node answer :: rest)
    (failed : (HookCall.extension node answer).verdict = .error error) :
    rest = [] ∧ result = .error error := by
  induction stops generalizing front with
  | nil => cases front <;> cases divided
  | page _ _ _ ih =>
    cases front with
    | nil => cases divided
    | cons first front => exact ih (List.cons.inj divided).2
  | passed accepted _ ih =>
    cases front with
    | nil =>
      obtain ⟨same, -⟩ := List.cons.inj divided
      rw [same, failed] at accepted
      cases accepted
    | cons first front => exact ih (List.cons.inj divided).2
  | refused wrong =>
    cases front with
    | nil =>
      obtain ⟨same, rfl⟩ := List.cons.inj divided
      rw [same] at wrong
      exact ⟨rfl, wrong.symm.trans failed⟩
    | cons first front =>
      exact absurd (List.cons.inj divided).2.symm (List.append_ne_nil_of_right_ne_nil _ (by simp))

end StopsAtRefusal

/-- The calls that the formatter makes itself stop at the first refusal, whatever page hooks do. -/
theorem Followed.stopsAtRefusal {offers : List Offer} {calls : List HookCall}
    {result : Except Error Unit} (followed : Followed offers calls result) :
    StopsAtRefusal calls result := by
  induction followed with
  | done | broken => exact .nil _
  | @passed _ call _ _ accepted _ ih =>
    cases call with
    | extension node answer => exact .passed accepted ih
    | page query answer => exact .page query answer ih
  | @refused call _ _ failed =>
    cases call with
    | extension node answer => exact .refused failed
    | page query answer => exact .page query answer (.nil _)

/-! ## Runs -/

section Run

variable (dialect : Dialect) (options : FormatOptions)
  (page : Query → Formatter → Outcome Unit × List HookCall)

theorem Step.asks_cases (step : Step) :
    step.asks = [] ∨ (∃ offer, step.asks = [some offer]) ∨ step.asks = [none] := by
  cases step with
  | page query => exact .inr (.inl ⟨_, rfl⟩)
  | extension node usual => exact .inr (.inl ⟨_, rfl⟩)
  | refuse | reject => exact .inr (.inr rfl)
  | _ => exact .inl rfl

/-- A line break fails only where there is no depth to go back to. -/
theorem Formatter.perform_newLine_cases (f : Formatter) (shift : Shift) :
    (f.perform dialect options (Formatter.newLine shift)).1 = .ok () ∨
      (f.perform dialect options (Formatter.newLine shift)).1 = .error .indentUnderflow := by
  simp only [Formatter.newLine, Formatter.perform_bind, Formatter.perform_get, Outcome.andThen_ok]
  cases Formatter.shiftDepth shift f.depth with
  | none => exact .inr rfl
  | some depth =>
    left
    simp only [Formatter.perform_bind, Formatter.perform_modify, Formatter.perform_read,
      Outcome.andThen_ok]
    cases (dialect.style options).options.beautify <;> rfl

/-- A step that asks for nothing calls no hook. -/
theorem Step.observe_silent {step : Step} (silent : step.asks = []) (f : Formatter) :
    (step.observe dialect options page f).2 = [] ∧
      ((step.observe dialect options page f).1.1 = .ok () ∨
        (step.observe dialect options page f).1.1 = .error .indentUnderflow) := by
  cases step with
  | text | identifier | dropBlank | placeholder => exact ⟨rfl, .inl rfl⟩
  | newLine shift => exact ⟨rfl, f.perform_newLine_cases dialect options shift⟩
  | page | extension | refuse | reject => cases silent

/-- The check compares identities, and fails with the kind of the node that was given. -/
theorem Formatter.perform_ensureSame_fst (f : Formatter) (given returned : Extension) :
    (f.perform dialect options (Formatter.ensureSame given returned)).1 =
      if returned.id? = given.id? then .ok () else .error (.treeModified given.kind) := by
  rw [Formatter.ensureSame, Tree.same_extension]
  by_cases same : returned.id? = given.id?
  · rw [if_pos same, beq_iff_eq.mpr same]
    rfl
  · rw [if_neg same, beq_eq_false_iff_ne.mpr same]
    rfl

/-- The result of writing an extension node is the verdict on what the hook has answered. -/
theorem Step.observe_extension (node : Extension) (usual : List Step) (f : Formatter) :
    ∃ answer, ((Step.extension node usual).observe dialect options page f).2 =
        [.extension node answer] ∧
      ((Step.extension node usual).observe dialect options page f).1.1 =
        (HookCall.extension node answer).verdict := by
  refine ⟨_, rfl, ?_⟩
  rw [Step.observe]
  rcases Formatter.perform _ dialect options (dialect.writeExtension node _) with
    ⟨error | returned, g⟩
  · rfl
  · exact g.perform_ensureSame_fst dialect options node returned

/-- A step that asks for something calls one hook, and its result is the verdict on the answer. -/
theorem Step.observe_asking {step : Step} {offer : Offer} (asking : step.asks = [some offer])
    (f : Formatter) :
    ∃ round : Round, round.call.given = offer ∧
      (step.observe dialect options page f).2 = [round] ∧
      (step.observe dialect options page f).1.1 = round.call.verdict := by
  cases step with
  | page query =>
    obtain rfl : Offer.page query = offer := Option.some.inj (List.cons.inj asking).1
    exact ⟨_, rfl, rfl, rfl⟩
  | extension node usual =>
    obtain rfl : Offer.extension node = offer := Option.some.inj (List.cons.inj asking).1
    obtain ⟨answer, called, decided⟩ := Step.observe_extension dialect options page node usual f
    exact ⟨.extension node answer, rfl, called, decided⟩
  | text | identifier | dropBlank | newLine | placeholder | refuse | reject => cases asking

/-- One step: its calls are for the first things on offer, and if it succeeds the rest of the run
goes on with those that are left. -/
theorem Step.followed_observe {step : Step} {offers : List Offer} {asks : List (Option Offer)}
    (asked : step.asks ++ asks = offers.map some) (f : Formatter) :
    (∃ error, (step.observe dialect options page f).1.1 = .error error ∧
        Followed offers ((step.observe dialect options page f).2.map Round.call) (.error error)) ∨
      (step.observe dialect options page f).1.1 = .ok () ∧
        ∃ others, asks = others.map some ∧ ∀ calls result, Followed others calls result →
          Followed offers ((step.observe dialect options page f).2.map Round.call ++ calls)
            result := by
  obtain silent | ⟨offer, asking⟩ | givesUp := step.asks_cases
  · obtain ⟨quiet, passed | broken⟩ := Step.observe_silent dialect options page silent f
    · rw [silent, List.nil_append] at asked
      rw [quiet]
      exact .inr ⟨passed, offers, asked, fun _ _ rest => rest⟩
    · rw [quiet]
      exact .inl ⟨_, broken, .broken offers⟩
  · obtain ⟨round, rfl, called, decided⟩ := Step.observe_asking dialect options page asking f
    rw [asking] at asked
    obtain ⟨first, others, rfl, given, more⟩ := List.map_eq_cons_iff.mp asked.symm
    obtain rfl : first = round.call.given := Option.some.inj given
    rw [called, decided]
    cases verdict : round.call.verdict with
    | error error => exact .inl ⟨error, rfl, .refused others verdict⟩
    | ok => exact .inr ⟨rfl, others, more.symm, fun _ _ rest => .passed verdict rest⟩
  · -- What is on offer never stands for a step that gives up.
    rw [givesUp] at asked
    obtain ⟨first, others, -, given, -⟩ := List.map_eq_cons_iff.mp asked.symm
    cases given

/-- A run calls the hooks for what the script asks for. -/
theorem Script.followed_observe {script : Script} {offers : List Offer}
    (asked : script.asks = offers.map some) (f : Formatter) :
    Followed offers ((Script.observe dialect options page f script).2.map Round.call)
      (Script.observe dialect options page f script).1.1 := by
  induction script generalizing offers f with
  | nil =>
    obtain rfl : offers = [] := List.map_eq_nil_iff.mp asked.symm
    exact .done
  | cons step rest ih =>
    rw [Script.asks_cons] at asked
    have first := Step.followed_observe dialect options page asked f
    rw [Script.observe]
    rcases observed : step.observe dialect options page f with ⟨⟨error | _, g⟩, rounds⟩
    · rw [observed] at first
      obtain ⟨_, failed, stopped⟩ | ⟨passed, -⟩ := first
      · obtain rfl := Except.error.inj failed
        exact stopped
      · cases passed
    · rw [observed] at first
      obtain ⟨_, failed, -⟩ | ⟨-, others, more, goesOn⟩ := first
      · cases failed
      · rw [List.map_append]
        exact goesOn _ _ (ih more g)

variable {page}

/-- One step: a page is as good as its hook, an extension node is judged by its answer. -/
theorem Step.stopsAtRefusal_observe
    (pages : ∀ query f, StopsAtRefusal (page query f).2 (page query f).1.1)
    (step : Step) (f : Formatter) :
    StopsAtRefusal ((step.observe dialect options page f).2.flatMap Round.calls)
      (step.observe dialect options page f).1.1 := by
  cases step with
  | page query =>
    rw [Step.observe, List.flatMap_singleton]
    exact .page query _ (pages query f)
  | extension node usual =>
    obtain ⟨answer, called, decided⟩ := Step.observe_extension dialect options page node usual f
    rw [called, decided, List.flatMap_singleton]
    cases verdict : (HookCall.extension node answer).verdict with
    | ok => exact .passed verdict (.nil _)
    | error error => exact .refused verdict
  | _ => exact .nil _

/-- If the calls inside page hooks stop where an answer is not accepted, all calls of a run do. -/
theorem Script.stopsAtRefusal_observe
    (pages : ∀ query f, StopsAtRefusal (page query f).2 (page query f).1.1)
    (script : Script) (f : Formatter) :
    StopsAtRefusal ((Script.observe dialect options page f script).2.flatMap Round.calls)
      (Script.observe dialect options page f script).1.1 := by
  induction script generalizing f with
  | nil => exact .nil _
  | cons step rest ih =>
    have first := step.stopsAtRefusal_observe dialect options pages f
    rw [Script.observe]
    rcases observed : step.observe dialect options page f with ⟨⟨error | _, g⟩, rounds⟩
    · rw [observed] at first
      exact first
    · rw [observed] at first
      rw [List.flatMap_append]
      exact first.append rfl (ih g)

end Run

namespace PageHook

variable (hooks : DialectHooks) (options : FormatOptions)

/-- Such a hook makes no calls, so the error of its visit is the last word. -/
theorem EndsWith.observe {hook : PageHook} {error : Error} (ends : hook.EndsWith error)
    (f : Formatter) :
    (hook.observe hooks options f).1.1 = .error error ∧ (hook.observe hooks options f).2 = [] := by
  induction hook generalizing f with
  | done answer => exact ⟨ends, rfl⟩
  | look next ih => exact ih _ f (ends _ f) f
  | put g next ih => exact ih ends g
  | visit | call => cases ends

/-- A page hook that passes errors on stops where an answer is not accepted. -/
theorem PassesErrorsOn.stopsAtRefusal {hook : PageHook} (passes : hook.PassesErrorsOn)
    (f : Formatter) :
    StopsAtRefusal (hook.observe hooks options f).2 (hook.observe hooks options f).1.1 := by
  induction hook generalizing f with
  | done answer => exact .nil _
  | look next ih => exact ih _ f (passes _ f) f
  | put g next ih => exact ih passes g
  | visit statement pages next ihPages ih =>
    obtain ⟨inPages, afterSuccess, afterError⟩ := passes
    let dialect := hooks.dialectWith fun query => (pages query).run hooks
    have visited := Script.stopsAtRefusal_observe dialect options
      (fun query => ihPages query (inPages query)) statement.script f
    rw [PageHook.observe]
    rcases observed : Script.observe dialect options
      (fun query => (pages query).observe hooks options) f statement.script with
      ⟨⟨error | _, g⟩, rounds⟩
    · rw [observed] at visited
      obtain ⟨ended, quiet⟩ := (afterError error).observe hooks options g
      dsimp only
      rw [ended, quiet, List.append_nil]
      exact visited
    · rw [observed] at visited
      exact visited.append rfl (ih _ afterSuccess g)
  | call => cases passes

end PageHook

end SqlTree
