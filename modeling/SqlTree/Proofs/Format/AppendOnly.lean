import SqlTree.Proofs.Format.Rendering
import SqlTree.Proofs.Script.Placement

/-!
# Writing only appends

Whatever a formatter is asked to write goes behind the text and the parameters it already has, and
depends on nothing of them: only on the tree, the dialect, the options and the depth. A tree that is
written to its end leaves one blank behind it and the depth as it was.
-/

namespace SqlTree

/-- What a formatter can be asked to write on its own. -/
inductive Subject where
  | statement (tree : Statement)
  | scalar (tree : Scalar)
  | source (tree : Source)
  | query (tree : Query)

namespace Subject

def script : Subject → Script
  | .statement tree => tree.script
  | .scalar tree => tree.script
  | .source tree => tree.script
  | .query tree => tree.script

def write (dialect : Dialect) (subject : Subject) : FormatM Unit :=
  Script.run dialect subject.script

def render (flavor : Flavor) (layout : Layout) (depth : Nat) : Subject → List Char
  | .statement tree => tree.render flavor layout depth
  | .scalar tree => tree.render flavor layout depth
  | .source tree => tree.render flavor layout depth
  | .query tree => tree.render flavor layout depth

/-- Whatever the subject, something that is no blank is written before a blank is taken back. -/
theorem opens_script (flavor : Flavor) (subject : Subject) :
    Script.opens flavor subject.script = true := by
  cases subject with
  | statement tree => exact tree.opens_script flavor
  | scalar tree => exact tree.opens_script flavor
  | source tree => exact tree.opens_script flavor
  | query tree => exact tree.opens_script flavor

/-- A subject is written as the grammar says, with one blank behind it. -/
theorem writes_script (flavor : Flavor) (options : FormatOptions) (subject : Subject)
    (depth : Nat) :
    Script.Writes flavor options depth subject.script
      (subject.render flavor options.layout depth) := by
  cases subject with
  | statement tree => exact tree.writes_script flavor options depth
  | scalar tree => exact tree.writes_script flavor options depth
  | source tree => exact tree.writes_script flavor options depth
  | query tree => exact tree.writes_script flavor options depth

/-- The text of a subject ends in a character that is no white space. -/
theorem endsNonblank_render (flavor : Flavor) (layout : Layout) (subject : Subject) (depth : Nat) :
    EndsNonblank (subject.render flavor layout depth) := by
  have nonblank : NonblankEnds False (subject.render flavor layout depth) := by
    cases subject with
    | statement tree => exact tree.nonblankTexts_render flavor layout depth False.elim
    | scalar tree => exact tree.nonblankTexts_render flavor layout depth False.elim
    | source tree => exact tree.nonblankTexts_render flavor layout depth False.elim
    | query tree => exact tree.nonblankTexts_render flavor layout depth False.elim
  exact nonblank.ends

end Subject

/-- Every formatter is a fresh one at its depth, behind what it has done so far. -/
theorem Formatter.followedBy_fresh (f : Formatter) : f.followedBy { depth := f.depth } = f := by
  simp [followedBy, Buffer.append, Buffer.toList]

/-- An identifier is not blank, since its quote characters are not. -/
theorem Flavor.exists_ne_blank_quoteIdentifier (flavor : Flavor) (name : String) :
    ∃ c ∈ (flavor.dialect.quoteIdentifier name).toList, c ≠ ' ' := by
  have quoted : flavor.quote ∈ (Quoted.encode flavor.quote name).toList := by
    simp [Quoted.encode, Quoted.enclose]
  exact ⟨flavor.quote, quoted, by cases flavor <;> decide⟩

/-- A subject is written behind any text and any parameters as it is by a fresh formatter at the
same depth. -/
theorem Subject.perform_write (flavor : Flavor) (options : FormatOptions) (subject : Subject)
    (f : Formatter) :
    f.perform flavor.dialect options (subject.write flavor.dialect) =
      Outcome.behind f
        (Formatter.perform { depth := f.depth } flavor.dialect options
          (subject.write flavor.dialect)) := by
  have visible (name : String) :
      ∃ c ∈ ((flavor.dialect.style options).quoteIdentifier name).toList, c ≠ ' ' :=
    flavor.exists_ne_blank_quoteIdentifier name
  have opened : Action.opens (Script.actions flavor subject.script) = true :=
    subject.opens_script flavor
  rw [write, perform_script, perform_script, ← Action.exec_followedBy visible f (.inr opened),
    f.followedBy_fresh]

/-- What writing a subject adds is the same for all formatters at a depth: a result, a text and some
parameters, whatever text and parameters the formatter has. If the writing succeeds, the depth is
the old one again and the text ends in exactly one blank. -/
theorem write_appends (flavor : Flavor) (options : FormatOptions) (depth : Nat)
    (subject : Subject) :
    ∃ (result : Except Error Unit) (text : List Char) (parameters : List Argument),
      (∀ f : Formatter, f.depth = depth → ∃ g : Formatter,
        f.perform flavor.dialect options (subject.write flavor.dialect) = (result, g) ∧
          g.buffer.toList = f.buffer.toList ++ text ∧
          g.parameters.toList = f.parameters.toList ++ parameters ∧
          (result = .ok () → g.depth = depth)) ∧
      (result = .ok () → ∃ front last, text = front ++ [last, ' '] ∧ last ≠ ' ') := by
  obtain ⟨result, fresh, ran⟩ : ∃ result fresh, Formatter.perform { depth } flavor.dialect options
      (subject.write flavor.dialect) = (result, fresh) := ⟨_, _, rfl⟩
  have written : result = .ok () →
      fresh.buffer.toList = subject.render flavor options.layout depth ++ [' '] ∧
        fresh.depth = depth := by
    rintro rfl
    rw [Subject.write, perform_script] at ran
    exact subject.writes_script flavor options depth [] { depth } fresh rfl rfl ran
  refine ⟨result, fresh.buffer.toList, fresh.parameters.toList, ?_, ?_⟩
  · rintro f rfl
    refine ⟨f.followedBy fresh, ?_, ?_, ?_, fun success => (written success).2⟩
    · rw [subject.perform_write flavor options f, ran]
      rfl
    · exact Buffer.toList_append f.buffer fresh.buffer.toList
    · exact Array.toList_append
  · intro success
    obtain ⟨front, last, ends, solid⟩ :=
      (subject.endsNonblank_render flavor options.layout depth).exists_append
    refine ⟨front, last, ?_, solid⟩
    rw [(written success).1, ends, List.append_assoc]
    rfl

end SqlTree
