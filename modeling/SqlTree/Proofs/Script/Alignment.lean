import SqlTree.Proofs.Script.Action
import SqlTree.Proofs.Script.Pieces
import SqlTree.Proofs.Text.Masking

/-!
# Placeholders and their parameters

Every placeholder outside quoted names has its parameter, and every name is closed: this holds of a
fresh formatter, each action keeps it, and so does every script that writes texts as they are only
if these have neither placeholders nor quotes. Since it holds between any two actions, it does not
matter where a script fails.
-/

namespace SqlTree

open Masking

/-! ## Texts and states in which nothing is missing -/

/-- Every name in a text is closed, and outside names stand as many placeholders as there are
parameters. -/
structure Masking.Counted (quote : Char) (text : List Char) (parameters : Nat) : Prop where
  ended : Ended quote text
  counted : placeholders quote text = parameters

namespace Masking.Counted

variable {quote : Char} {text rest : List Char} {parameters : Nat}

/-- A text without quotes adds its question marks as placeholders. -/
theorem append_free (counted : Counted quote text parameters) (free : quote ∉ rest) :
    Counted quote (text ++ rest) (parameters + rest.count '?') where
  ended := by
    have even := ended_iff_even.mp counted.ended
    rw [ended_iff_even, List.count_append, List.count_eq_zero.mpr free]
    exact even
  counted := by rw [placeholders_append_free counted.ended free, counted.counted]

/-- Taking such a text back takes its placeholders back. -/
theorem of_append_free (counted : Counted quote (text ++ rest) (parameters + rest.count '?'))
    (free : quote ∉ rest) : Counted quote text parameters := by
  have even := ended_iff_even.mp counted.ended
  rw [List.count_append, List.count_eq_zero.mpr free] at even
  have ended : Ended quote text := ended_iff_even.mpr even
  have total := counted.counted
  rw [placeholders_append_free ended free] at total
  exact ⟨ended, Nat.add_right_cancel total⟩

/-- Question marks in a quoted name are no placeholders, and the name is closed. -/
theorem append_enclose (counted : Counted quote text parameters) (name : List Char) :
    Counted quote (text ++ Quoted.enclose quote name) parameters where
  ended := counted.ended.append_enclose name
  counted := by rw [placeholders_append_enclose counted.ended, counted.counted]

end Masking.Counted

/-- A formatter in which nothing is missing. -/
def Formatter.Aligned (quote : Char) (f : Formatter) : Prop :=
  Counted quote f.buffer.toList f.parameters.size

theorem Formatter.aligned_fresh (quote : Char) : Formatter.Aligned quote {} :=
  ⟨Place.outside_ne_inside, rfl⟩

/-- A text that brings neither a placeholder nor a quote. -/
def MarkFree (quote : Char) (s : String) : Prop :=
  '?' ∉ s.toList ∧ quote ∉ s.toList

/-- The blank behind a keyword brings nothing. -/
theorem MarkFree.keyword {flavor : Flavor} {s : String} (markFree : MarkFree flavor.quote s) :
    MarkFree flavor.quote (s ++ " ") := by
  have blank : '?' ∉ " ".toList ∧ flavor.quote ∉ " ".toList := by cases flavor <;> decide
  rw [MarkFree, String.toList_append, List.mem_append, List.mem_append, not_or, not_or]
  exact ⟨⟨markFree.1, blank.1⟩, markFree.2, blank.2⟩

/-- An action that writes a text as it is only if the text brings neither. -/
def Action.MarkFree (quote : Char) : Action → Prop
  | .write s => SqlTree.MarkFree quote s
  | _ => True

theorem Flavor.markFree_indent (flavor : Flavor) (width : Nat) :
    '?' ∉ '\n' :: List.replicate width ' ' ∧ flavor.quote ∉ '\n' :: List.replicate width ' ' := by
  have other {c : Char} (line : c ≠ '\n') (blank : c ≠ ' ') :
      c ∉ '\n' :: List.replicate width ' ' :=
    List.not_mem_cons_of_ne_of_not_mem line fun member => blank (List.eq_of_mem_replicate member)
  exact ⟨other (by decide) (by decide),
    other (by cases flavor <;> decide) (by cases flavor <;> decide)⟩

/-- At most one blank is taken back. -/
theorem Buffer.dropBlank_cases (buffer : Buffer) :
    buffer.dropBlank = buffer ∨ buffer.toList = buffer.dropBlank.toList ++ [' '] := by
  rw [dropBlank]
  split
  · next rest ends =>
    right
    rw [toList, ends]
    exact List.reverse_cons
  · exact .inl rfl

section Steps

variable {flavor : Flavor} {options : FormatOptions} {f : Formatter}

theorem Formatter.Aligned.dropBlank (aligned : f.Aligned flavor.quote) :
    Counted flavor.quote f.buffer.dropBlank.toList f.parameters.size := by
  rcases f.buffer.dropBlank_cases with same | ends
  · rw [same]
    exact aligned
  · have blank : flavor.quote ∉ [' '] := by cases flavor <;> decide
    rw [Aligned, ends] at aligned
    exact aligned.of_append_free blank

/-- One action keeps placeholders and parameters together, whether it succeeds or fails. -/
theorem Action.aligned_apply {action : Action} (markFree : action.MarkFree flavor.quote)
    (aligned : f.Aligned flavor.quote) :
    (action.apply (flavor.dialect.style options) f).2.Aligned flavor.quote := by
  cases action with
  | write s =>
    have silent : s.toList.count '?' = 0 := List.count_eq_zero.mpr markFree.1
    have written := aligned.append_free markFree.2
    rw [silent, ← Buffer.toList_append] at written
    exact written
  | identifier name =>
    have written := aligned.append_enclose name.toList
    rw [← Buffer.toList_append] at written
    have spelled : (Quoted.encode flavor.quote name).toList =
        Quoted.enclose flavor.quote name.toList := String.toList_ofList
    rw [← spelled] at written
    exact written
  | dropBlank => exact aligned.dropBlank
  | newLine shift =>
    rw [apply]
    cases Formatter.shiftDepth shift f.depth with
    | none => exact aligned
    | some depth =>
      cases beautify : (flavor.dialect.style options).options.beautify with
      -- On one line only the depth changes.
      | false => exact aligned
      | true =>
        obtain ⟨silent, free⟩ := flavor.markFree_indent (options.indentWidth depth)
        have written := aligned.dropBlank.append_free free
        rw [List.count_eq_zero.mpr silent, ← Buffer.toList_append] at written
        exact written
  | placeholder argument =>
    have free : flavor.quote ∉ "? ".toList := by cases flavor <;> decide
    have written := aligned.append_free free
    have one : "? ".toList.count '?' = 1 := by decide
    rw [one, ← Buffer.toList_append] at written
    rw [Formatter.Aligned, apply, Array.size_push]
    exact written
  | report event => exact aligned
  | fail error => exact aligned

/-- So does a list of actions, up to the one that fails. -/
theorem Action.aligned_exec {actions : List Action}
    (markFree : ∀ action ∈ actions, action.MarkFree flavor.quote)
    (aligned : f.Aligned flavor.quote) :
    (exec (flavor.dialect.style options) actions f).2.Aligned flavor.quote := by
  induction actions generalizing f with
  | nil => exact aligned
  | cons action rest ih =>
    have step : (action.apply (flavor.dialect.style options) f).2.Aligned flavor.quote :=
      aligned_apply (markFree action List.mem_cons_self) aligned
    rw [exec]
    rcases ran : action.apply (flavor.dialect.style options) f with ⟨_ | _, g⟩ <;> rw [ran] at step
    · exact step
    · exact ih (fun action member => markFree action (List.mem_cons_of_mem _ member)) step

end Steps

/-! ## Scripts -/

namespace Script

def WritesMarkFree (flavor : Flavor) (script : Script) : Prop :=
  ∀ action ∈ actions flavor script, action.MarkFree flavor.quote

variable {flavor : Flavor} {script rest : Script}

theorem WritesMarkFree.append (first : WritesMarkFree flavor script)
    (second : WritesMarkFree flavor rest) : WritesMarkFree flavor (script ++ rest) := by
  rw [WritesMarkFree, actions_append]
  exact List.forall_mem_append.mpr ⟨first, second⟩

theorem writesMarkFree_text {s : String} (markFree : MarkFree flavor.quote s) :
    WritesMarkFree flavor [.text s] :=
  List.forall_mem_singleton.mpr markFree

/-- The words of the grammar have neither question marks nor quotes. -/
theorem markFree_of_isFixed {s : String} (fixed : isFixed s = true) : MarkFree flavor.quote s := by
  have absent {c : Char} (special : c ∈ ['?', '"', '\x60']) : c ∉ s.toList := by
    intro member
    have other := List.all_eq_true.mp fixed c member
    exact of_decide_eq_true other special
  refine ⟨absent (by decide), absent ?_⟩
  cases flavor <;> decide

theorem writesMarkFree_newLine (shift : Shift) : WritesMarkFree flavor [.newLine shift] :=
  List.forall_mem_singleton.mpr trivial

theorem writesMarkFree_dropBlank : WritesMarkFree flavor [.dropBlank] :=
  List.forall_mem_singleton.mpr trivial

/-- The words of a page bring neither, whichever flavor writes it. -/
theorem markFree_pageActions (way : Flavor) (page : Page) :
    ∀ action ∈ way.pageActions page, action.MarkFree flavor.quote := by
  have word {s : String} (fixed : isFixed s = true) : (Action.write s).MarkFree flavor.quote :=
    markFree_of_isFixed fixed
  cases way with
  | mysql =>
    simp only [Flavor.pageActions, List.forall_mem_cons]
    exact ⟨word (by decide), trivial, trivial, word (by decide), trivial, nofun⟩
  | generic | postgresql =>
    simp only [Flavor.pageActions, List.forall_mem_cons]
    exact ⟨word (by decide), trivial, word (by decide), trivial, nofun⟩

theorem writesMarkFree_page (query : Query) : WritesMarkFree flavor [.page query] := by
  rw [WritesMarkFree, actions_cons, actions_nil, List.append_nil]
  exact markFree_pageActions flavor query.page

theorem WritesMarkFree.nested (inside : WritesMarkFree flavor script) :
    WritesMarkFree flavor (nested script) := by
  have opening : WritesMarkFree flavor [.text "("] :=
    writesMarkFree_text (markFree_of_isFixed (by decide))
  have closing : WritesMarkFree flavor [.text ") "] :=
    writesMarkFree_text (markFree_of_isFixed (by decide))
  exact ((opening.append (writesMarkFree_newLine .inner)).append inside).append
    ((writesMarkFree_dropBlank.append (writesMarkFree_newLine .outer)).append closing)

/-- Whether the node is refused or written, only texts of its usual form are written. -/
theorem WritesMarkFree.extension (inside : WritesMarkFree flavor script) (node : Extension) :
    WritesMarkFree flavor [.extension node script] := by
  rw [WritesMarkFree, actions_cons, actions_nil, List.append_nil, Step.actions]
  refine List.forall_mem_cons.mpr ⟨trivial, ?_⟩
  split
  · exact inside
  · exact List.forall_mem_singleton.mpr trivial

/-- Names are quoted, and values are bound: no text of the tree is written as it is, except names of
functions and types. -/
theorem inherited_writesMarkFree (flavor : Flavor) :
    Inherited (WritesMarkFree flavor) (MarkFree flavor.quote) where
  fixed := markFree_of_isFixed
  nil := nofun
  append := .append
  text := writesMarkFree_text
  identifier _ := List.forall_mem_singleton.mpr trivial
  dropBlank := writesMarkFree_dropBlank
  newLine := writesMarkFree_newLine .same
  placeholder _ := List.forall_mem_singleton.mpr trivial
  page := writesMarkFree_page
  nested := .nested
  extension node inside := inside.extension node
  refuse _ := List.forall_mem_singleton.mpr trivial
  reject _ _ := List.forall_mem_cons.mpr ⟨trivial, List.forall_mem_singleton.mpr trivial⟩

/-- A script of this kind keeps placeholders and parameters together, also if it fails. -/
theorem WritesMarkFree.aligned (writesFree : WritesMarkFree flavor script)
    {options : FormatOptions} {f : Formatter} (aligned : f.Aligned flavor.quote) :
    (f.perform flavor.dialect options (Script.run flavor.dialect script)).2.Aligned
      flavor.quote := by
  rw [perform_script]
  exact Action.aligned_exec writesFree aligned

end Script

end SqlTree
