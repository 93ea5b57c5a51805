import SqlTree.Proofs.Script.Action
import SqlTree.Proofs.Text.Grammar

/-!
# Where scripts take a formatter

`Moves` says which text and depth a script leaves behind if it succeeds on a formatter with some
other ones. There is one rule for each step; the blanks that steps take back are there to be taken.
-/

namespace SqlTree

/-! ### Taking blanks back -/

theorem Buffer.reversed_eq {buffer : Buffer} {text : List Char} {last : Char}
    (ends : buffer.toList = text ++ [last]) : buffer.reversed = last :: text.reverse := by
  have reversed := congrArg List.reverse ends
  simpa only [Buffer.toList, List.reverse_reverse, List.reverse_append, List.reverse_singleton,
    List.singleton_append] using reversed

/-- A blank at the end is taken back. -/
theorem Buffer.toList_dropBlank {buffer : Buffer} {text : List Char}
    (ends : buffer.toList = text ++ [' ']) : buffer.dropBlank.toList = text := by
  rw [Buffer.dropBlank, Buffer.reversed_eq ends]
  exact List.reverse_reverse text

/-- Nothing else is taken back. -/
theorem Buffer.dropBlank_of_ne {buffer : Buffer} {text : List Char} {last : Char}
    (ends : buffer.toList = text ++ [last]) (solid : last ≠ ' ') : buffer.dropBlank = buffer := by
  rw [Buffer.dropBlank, Buffer.reversed_eq ends]
  split
  · rename_i same
    exact absurd (List.cons.inj same).1 solid
  · rfl

namespace Script

variable {flavor : Flavor} {options : FormatOptions}

/-- If a script succeeds on a formatter with some text and depth, it leaves the other ones. -/
def Moves (flavor : Flavor) (options : FormatOptions) (script : Script) (text : List Char)
    (depth : Nat) (text' : List Char) (depth' : Nat) : Prop :=
  ∀ f g : Formatter, f.buffer.toList = text → f.depth = depth →
    Action.exec (flavor.dialect.style options) (actions flavor script) f = (.ok (), g) →
      g.buffer.toList = text' ∧ g.depth = depth'

section Moves

variable {text middle text' : List Char} {depth between depth' : Nat}

theorem Moves.nil : Moves flavor options [] text depth text depth := by
  intro f g written nesting success
  obtain ⟨-, rfl⟩ := Prod.mk.inj success
  exact ⟨written, nesting⟩

/-- Scripts move on from where the one before has stopped. -/
theorem Moves.append {first second : Script}
    (moved : Moves flavor options first text depth middle between)
    (movedOn : Moves flavor options second middle between text' depth') :
    Moves flavor options (first ++ second) text depth text' depth' := by
  intro f g written nesting success
  rw [actions_append, Action.exec_append] at success
  obtain ⟨_, h, ranFirst, ranSecond⟩ := Outcome.andThen_eq_ok success
  obtain ⟨writtenFirst, nestingFirst⟩ := moved f h written nesting ranFirst
  exact movedOn h g writtenFirst nestingFirst ranSecond

theorem moves_text (s : String) :
    Moves flavor options [.text s] text depth (text ++ s.toList) depth := by
  intro f g written nesting success
  obtain ⟨-, rfl⟩ := Prod.mk.inj success
  exact ⟨(Buffer.toList_append f.buffer s.toList).trans (written ▸ rfl), nesting⟩

theorem moves_identifier (name : String) :
    Moves flavor options [.identifier name] text depth (text ++ Grammar.quoted flavor name)
      depth := by
  intro f g written nesting success
  obtain ⟨-, rfl⟩ := Prod.mk.inj success
  have encoded : (Quoted.encode flavor.quote name).toList = Grammar.quoted flavor name :=
    String.toList_ofList
  refine ⟨(Buffer.toList_append f.buffer _).trans ?_, nesting⟩
  rw [written]
  exact congrArg (text ++ ·) encoded

theorem moves_placeholder (argument : Argument) :
    Moves flavor options [.placeholder argument] text depth (text ++ ['?', ' ']) depth := by
  intro f g written nesting success
  obtain ⟨-, rfl⟩ := Prod.mk.inj success
  exact ⟨(Buffer.toList_append f.buffer _).trans (written ▸ rfl), nesting⟩

theorem moves_dropBlank :
    Moves flavor options [.dropBlank] (text ++ [' ']) depth text depth := by
  intro f g written nesting success
  obtain ⟨-, rfl⟩ := Prod.mk.inj success
  exact ⟨Buffer.toList_dropBlank written, nesting⟩

theorem moves_dropBlank_of_ne {last : Char} (solid : last ≠ ' ') :
    Moves flavor options [.dropBlank] (text ++ [last]) depth (text ++ [last]) depth := by
  intro f g written nesting success
  obtain ⟨-, rfl⟩ := Prod.mk.inj success
  exact ⟨(congrArg Buffer.toList (Buffer.dropBlank_of_ne written solid)).trans written, nesting⟩

/-- A new line starts at its depth, in the place of the last blank, if lines are asked for. -/
theorem moves_newLine {shift : Shift} {stripped : List Char}
    (shifted : Formatter.shiftDepth shift depth = some depth')
    (strips : ∀ buffer : Buffer, buffer.toList = text → buffer.dropBlank.toList = stripped)
    (broken : options.beautify = true →
      text' = stripped ++ '\n' :: .replicate (options.indentWidth depth') ' ')
    (unbroken : options.beautify = false → text' = text) :
    Moves flavor options [.newLine shift] text depth text' depth' := by
  intro f g written nesting success
  rw [actions_cons, actions_nil, List.append_nil, Step.actions, Action.exec, Action.apply, nesting,
    shifted] at success
  obtain ⟨-, rfl⟩ := Prod.mk.inj success
  refine ⟨?_, rfl⟩
  cases beautify : options.beautify with
  | false =>
    have style : (flavor.dialect.style options).options.beautify = false := beautify
    simp only [style, Bool.false_eq_true, if_false]
    exact written.trans (unbroken beautify).symm
  | true =>
    have style : (flavor.dialect.style options).options.beautify = true := beautify
    simp only [style, if_true, Buffer.toList_append, strips f.buffer written]
    exact (broken beautify).symm

/-- Within a query the next clause goes on behind a gap. -/
theorem moves_newLine_same :
    Moves flavor options [.newLine .same] (text ++ [' ']) depth (text ++ options.layout.gap depth)
      depth := by
  refine moves_newLine rfl (fun _ => Buffer.toList_dropBlank) ?_ ?_
  all_goals
    intro beautify
    simp [FormatOptions.layout, beautify, Layout.lines, Layout.compact]

/-- The brackets around a query stand at the edges of its lines. The last character before an edge
is not a blank that could be taken back. -/
theorem moves_newLine_edge {shift : Shift} {last : Char} (solid : last ≠ ' ')
    (shifted : Formatter.shiftDepth shift depth = some depth') :
    Moves flavor options [.newLine shift] (text ++ [last]) depth
      (text ++ [last] ++ options.layout.edge depth') depth' := by
  have kept : ∀ buffer : Buffer, buffer.toList = text ++ [last] →
      buffer.dropBlank.toList = text ++ [last] := fun buffer ends =>
    (congrArg Buffer.toList (Buffer.dropBlank_of_ne ends solid)).trans ends
  refine moves_newLine shifted kept ?_ ?_
  all_goals
    intro beautify
    simp [FormatOptions.layout, beautify, Layout.lines, Layout.compact]

/-- An extension node is written in its usual form, or not at all. -/
theorem moves_extension (node : Extension) {usual : Script}
    (moved : Moves flavor options usual text depth text' depth') :
    Moves flavor options [.extension node usual] text depth text' depth' := by
  intro f g written nesting success
  rw [actions_cons, actions_nil, List.append_nil, Step.actions, Action.exec, Action.apply,
    Outcome.andThen_ok] at success
  by_cases owned : flavor.owns node = true
  · rw [if_pos owned] at success
    exact moved { f with events := f.events.push (.routed flavor.name node.kind) } g written
      nesting success
  · rw [if_neg owned] at success
    cases congrArg Prod.fst success

/-- A step that never succeeds has nothing to prove about its success. -/
theorem moves_refuse (error : Error) :
    Moves flavor options [.refuse error] text depth text' depth' := by
  intro f g _ _ success
  cases congrArg Prod.fst success

/-- A script that fails leaves nothing to say. -/
theorem moves_reject (event : Event) (error : Error) :
    Moves flavor options [.reject event error] text depth text' depth' := by
  intro f g _ _ success
  cases congrArg Prod.fst success

end Moves

end Script

end SqlTree
