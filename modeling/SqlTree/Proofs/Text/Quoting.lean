import SqlTree.Dialect.Basic

/-!
# Reading quoted identifiers

An identifier can be read back from where it was written: a quote character that is written twice
belongs to the name, and the first one that is not ends it. What follows the identifier is left as
it is, provided that it does not start with a quote character itself. Nothing else is read, so a
text shows which identifier stands at its start and where that ends, whatever the quote character of
the dialect.
-/

namespace SqlTree

namespace Quoted

/-- Reads a name up to its closing quote, and returns it with what stands behind that quote. -/
def scan (quote : Char) : List Char → Option (List Char × List Char)
  | [] => none
  | [c] => if c = quote then some ([], []) else none
  | c :: d :: rest =>
    if c = quote then
      if d = quote then (scan quote rest).map fun (name, behind) => (quote :: name, behind)
      else some ([], d :: rest)
    else (scan quote (d :: rest)).map fun (name, behind) => (c :: name, behind)

def read (quote : Char) : List Char → Option (List Char × List Char)
  | [] => none
  | c :: rest => if c = quote then scan quote rest else none

variable {quote : Char} {text name name' rest rest' : List Char}

/-- A quote that is not followed by another one ends the name. -/
theorem scan_quote (apart : rest.head? ≠ some quote) :
    scan quote (quote :: rest) = some ([], rest) := by
  cases rest with
  | nil => simp [scan]
  | cons d rest =>
    have different : d ≠ quote := fun same => apart (congrArg some same)
    simp [scan, different]

/-- Any other character belongs to the name. -/
theorem scan_cons {c : Char} (different : c ≠ quote) (nonempty : text ≠ []) :
    scan quote (c :: text) =
      (scan quote text).map fun (name, behind) => (c :: name, behind) := by
  obtain ⟨d, rest, rfl⟩ := List.exists_cons_of_ne_nil nonempty
  simp [scan, different]

/-- Scanning undoes the doubling of quotes, and stops at the closing one. -/
theorem scan_double (name : List Char) (apart : rest.head? ≠ some quote) :
    scan quote (double quote name ++ quote :: rest) = some (name, rest) := by
  induction name with
  | nil => exact scan_quote apart
  | cons c name ih =>
    by_cases same : c = quote
    · subst same
      simp [double, scan, ih]
    · have nonempty : double quote name ++ quote :: rest ≠ [] :=
        List.append_ne_nil_of_right_ne_nil _ (List.cons_ne_nil _ _)
      simp [double, same, scan_cons same nonempty, ih]

/-- An identifier is read back from where it was written. -/
theorem read_enclose (name : List Char) (apart : rest.head? ≠ some quote) :
    read quote (enclose quote name ++ rest) = some (name, rest) := by
  have scanned := scan_double name apart
  simpa [read, enclose] using scanned

/-- What is scanned is a name with its quotes doubled, up to a closing quote that no other quote
follows. -/
theorem eq_double_of_scan (scanned : scan quote text = some (name, rest)) :
    text = double quote name ++ quote :: rest ∧ rest.head? ≠ some quote := by
  fun_induction scan quote text generalizing name with
  | case1 => cases scanned
  | case2 =>
    cases scanned
    exact ⟨rfl, (Option.some_ne_none quote).symm⟩
  | case3 => cases scanned
  | case4 tail ih =>
    -- The two quotes at the start are one character of the name.
    obtain ⟨⟨found, _⟩, scannedTail, same⟩ := Option.map_eq_some_iff.mp scanned
    cases same
    obtain ⟨rfl, apart⟩ := ih scannedTail
    exact ⟨by simp [double], apart⟩
  | case5 d tail different =>
    cases scanned
    exact ⟨rfl, fun same => different (Option.some.inj same)⟩
  | case6 c d tail different ih =>
    obtain ⟨⟨found, _⟩, scannedTail, same⟩ := Option.map_eq_some_iff.mp scanned
    cases same
    obtain ⟨spelled, apart⟩ := ih scannedTail
    exact ⟨by simp [double, different, spelled], apart⟩

/-- Reading accepts just the identifiers that were written and end where they are read to end. -/
theorem read_eq_some_iff :
    read quote text = some (name, rest) ↔
      text = enclose quote name ++ rest ∧ rest.head? ≠ some quote := by
  constructor
  · intro found
    cases text with
    | nil => cases found
    | cons c text =>
      rw [read] at found
      split at found
      case isTrue opening =>
        obtain ⟨spelled, apart⟩ := eq_double_of_scan found
        exact ⟨by simp [enclose, opening, spelled], apart⟩
      case isFalse => cases found
  · rintro ⟨rfl, apart⟩
    exact read_enclose name apart

/-- Two identifiers without anything between them are read as one, with a quote in its name. -/
example : read '"' (enclose '"' ['a'] ++ enclose '"' ['b']) = some (['a', '"', 'b'], []) := by
  decide

/-- A text starts with one identifier at most. -/
theorem eq_of_enclose_append (apart : rest.head? ≠ some quote) (apart' : rest'.head? ≠ some quote)
    (same : enclose quote name ++ rest = enclose quote name' ++ rest') :
    name = name' ∧ rest = rest' := by
  have first : read quote (enclose quote name ++ rest) = some (name, rest) :=
    read_enclose name apart
  have second : read quote (enclose quote name ++ rest) = some (name', rest') :=
    same ▸ read_enclose name' apart'
  exact Prod.mk.inj (Option.some.inj (first.symm.trans second))

end Quoted

namespace Dialect

/-- Reads an identifier at the start of a text, and returns it with what stands behind it. -/
def readIdentifier (dialect : Dialect) (text : String) : Option (String × String) :=
  (Quoted.read dialect.quote text.toList).map (Prod.map String.ofList String.ofList)

variable {dialect : Dialect} {text name rest : String}

theorem toList_quoteIdentifier_append
    (usual : dialect.quoteIdentifier = Quoted.encode dialect.quote) :
    (dialect.quoteIdentifier name ++ rest).toList =
      Quoted.enclose dialect.quote name.toList ++ rest.toList := by
  rw [String.toList_append, usual, Quoted.encode, String.toList_ofList]

/-- An identifier is read exactly where one was written, in front of a text that does not go on with
a quote. -/
theorem readIdentifier_eq_some_iff
    (usual : dialect.quoteIdentifier = Quoted.encode dialect.quote) :
    dialect.readIdentifier text = some (name, rest) ↔
      text = dialect.quoteIdentifier name ++ rest ∧ rest.toList.head? ≠ some dialect.quote := by
  have onLists : dialect.readIdentifier text = some (name, rest) ↔
      Quoted.read dialect.quote text.toList = some (name.toList, rest.toList) := by
    constructor
    · intro found
      obtain ⟨⟨first, behind⟩, foundLists, same⟩ := Option.map_eq_some_iff.mp found
      cases same
      rw [foundLists, String.toList_ofList, String.toList_ofList]
    · intro foundLists
      rw [readIdentifier, foundLists, Option.map_some, Prod.map_apply, String.ofList_toList,
        String.ofList_toList]
  rw [onLists, Quoted.read_eq_some_iff, ← toList_quoteIdentifier_append usual, String.toList_inj]

/-- Identifiers that are quoted in the usual way end by themselves and can be read back. With texts
behind them that do not start with the quote character, two of them agree only if the names and the
texts behind agree. A name is read, and the text behind it is left, where the two were written and
nowhere else. -/
theorem quoteIdentifier_self_delimiting (dialect : Dialect)
    (usual : dialect.quoteIdentifier = Quoted.encode dialect.quote)
    (name name' rest rest' : String)
    (apart : rest.toList.head? ≠ some dialect.quote)
    (apart' : rest'.toList.head? ≠ some dialect.quote) :
    (dialect.quoteIdentifier name ++ rest = dialect.quoteIdentifier name' ++ rest' ↔
      name = name' ∧ rest = rest') ∧
    ∀ text, dialect.readIdentifier text = some (name, rest) ↔
      text = dialect.quoteIdentifier name ++ rest := by
  refine ⟨⟨fun same => ?_, ?_⟩, fun text => ?_⟩
  · have texts := congrArg String.toList same
    rw [toList_quoteIdentifier_append usual, toList_quoteIdentifier_append usual] at texts
    obtain ⟨names, rests⟩ := Quoted.eq_of_enclose_append apart apart' texts
    exact ⟨String.toList_inj.mp names, String.toList_inj.mp rests⟩
  · rintro ⟨rfl, rfl⟩
    rfl
  · rw [readIdentifier_eq_some_iff usual, and_iff_left apart]

def bars : Dialect where
  name := "bars"
  quote := '|'
  writePage := fun _ => pure ()

theorem quoteIdentifier_self_delimiting_bars :
    let text := "|||||a||b|||.|c|"
    bars.quoteIdentifier "||a|b|" ++ ".|c|" = text ∧
      ".|c|".toList.head? ≠ some bars.quote ∧ "b|||.|c|".toList.head? ≠ some bars.quote ∧
      bars.readIdentifier text = some ("||a|b|", ".|c|") ∧
      text ≠ bars.quoteIdentifier "||a|" ++ "b|||.|c|" := by
  have written : bars.quoteIdentifier "||a|b|" ++ ".|c|" = "|||||a||b|||.|c|" := by decide
  have apart : ".|c|".toList.head? ≠ some bars.quote := by decide
  have apart' : "b|||.|c|".toList.head? ≠ some bars.quote := by decide
  have ⟨agrees, reads⟩ :=
    quoteIdentifier_self_delimiting bars rfl "||a|b|" "||a|" ".|c|" "b|||.|c|" apart apart'
  refine ⟨written, apart, apart', (reads _).mpr written.symm, fun same => ?_⟩
  have names := (agrees.mp (written.trans same)).1
  exact absurd names (by decide)

end Dialect

end SqlTree
