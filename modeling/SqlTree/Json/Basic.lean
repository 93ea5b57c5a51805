/-!
# JSON documents

A strict reader of JSON. Numbers keep their spelling. A string literal, be it a value or a key, has
a text only if its escapes spell Unicode characters: an escaped surrogate without its partner is
allowed, but such a literal has no text.
-/

namespace SqlTree

inductive Json where
  | null
  | bool (b : Bool)
  | number (literal : List Char)
  | string (text : Option String)
  | array (items : List Json)
  | object (fields : List (Option String × Json))

namespace Json

/-! ## String literals -/

/-- A part of a string literal: a character, or a UTF-16 unit written as an escape. -/
inductive Piece where
  | char (c : Char)
  | unit (u : Nat)
  deriving DecidableEq, Repr

def hexDigit? (c : Char) : Option Nat :=
  if '0' ≤ c ∧ c ≤ '9' then some (c.toNat - '0'.toNat)
  else if 'a' ≤ c ∧ c ≤ 'f' then some (c.toNat - 'a'.toNat + 10)
  else if 'A' ≤ c ∧ c ≤ 'F' then some (c.toNat - 'A'.toNat + 10)
  else none

def hexUnit? (a b c d : Char) : Option Nat := do
  let a ← hexDigit? a
  let b ← hexDigit? b
  let c ← hexDigit? c
  let d ← hexDigit? d
  return ((a * 16 + b) * 16 + c) * 16 + d

/-- The character that a backslash and one more character stand for. -/
def escaped? : Char → Option Char
  | '"' => some '"'
  | '\\' => some '\\'
  | '/' => some '/'
  | 'b' => some '\x08'
  | 'f' => some '\x0c'
  | 'n' => some '\n'
  | 'r' => some '\r'
  | 't' => some '\t'
  | _ => none

/-- Reads a string literal behind its opening quote, and returns what follows the closing one.
Control characters have to be escaped. -/
def pieces? : List Char → Option (List Piece × List Char)
  | [] => none
  | '"' :: rest => some ([], rest)
  | '\\' :: 'u' :: a :: b :: c :: d :: rest => do
    let unit ← hexUnit? a b c d
    let (parts, rest) ← pieces? rest
    return (.unit unit :: parts, rest)
  | '\\' :: c :: rest => do
    let char ← escaped? c
    let (parts, rest) ← pieces? rest
    return (.char char :: parts, rest)
  | c :: rest =>
    if c.toNat < 0x20 then none
    else do
      let (parts, rest) ← pieces? rest
      return (.char c :: parts, rest)

/-- Whether a UTF-16 unit is the first half of a pair. -/
def isHighSurrogate (u : Nat) : Bool :=
  0xD800 ≤ u && u < 0xDC00

/-- Whether a UTF-16 unit is the second half of a pair. -/
def isLowSurrogate (u : Nat) : Bool :=
  0xDC00 ≤ u && u < 0xE000

/-- The characters that the parts of a string literal spell, unless a surrogate stands alone. -/
def spell? : List Piece → Option (List Char)
  | [] => some []
  | .char c :: rest => (spell? rest).map (c :: ·)
  | .unit high :: .unit low :: rest =>
    if isHighSurrogate high then
      if isLowSurrogate low then
        (spell? rest).map (Char.ofNat (0x10000 + (high - 0xD800) * 0x400 + (low - 0xDC00)) :: ·)
      else none
    else if isLowSurrogate high then none
    else (spell? (.unit low :: rest)).map (Char.ofNat high :: ·)
  | .unit u :: rest =>
    if isHighSurrogate u || isLowSurrogate u then none
    else (spell? rest).map (Char.ofNat u :: ·)

/-- Reads a string literal behind its opening quote: its text, if it has one, and what follows. -/
def literal? (cs : List Char) : Option (Option String × List Char) := do
  let (parts, rest) ← pieces? cs
  return ((spell? parts).map String.ofList, rest)

/-! ## Numbers -/

/-- Splits off a run of digits, which must not be empty. -/
def digits? (cs : List Char) : Option (List Char × List Char) :=
  match cs.takeWhile Char.isDigit with
  | [] => none
  | run => some (run, cs.dropWhile Char.isDigit)

/-- Splits off the digits before the point: a zero stands alone. -/
def integerPart? : List Char → Option (List Char × List Char)
  | '0' :: rest =>
    match rest with
    | c :: _ => if c.isDigit then none else some (['0'], rest)
    | [] => some (['0'], [])
  | cs => digits? cs

/-- Splits off a point with digits behind it, if there is a point. -/
def fractionPart? : List Char → Option (List Char × List Char)
  | '.' :: rest => (digits? rest).map fun (run, rest) => ('.' :: run, rest)
  | cs => some ([], cs)

def exponentPart? : List Char → Option (List Char × List Char)
  | c :: rest =>
    if c = 'e' ∨ c = 'E' then
      match rest with
      | '+' :: rest => (digits? rest).map fun (run, rest) => (c :: '+' :: run, rest)
      | '-' :: rest => (digits? rest).map fun (run, rest) => (c :: '-' :: run, rest)
      | _ => (digits? rest).map fun (run, rest) => (c :: run, rest)
    else some ([], c :: rest)
  | [] => some ([], [])

def unsigned? (cs : List Char) : Option (List Char × List Char) := do
  let (whole, rest) ← integerPart? cs
  let (fraction, rest) ← fractionPart? rest
  let (exponent, rest) ← exponentPart? rest
  return (whole ++ fraction ++ exponent, rest)

def number? : List Char → Option (List Char × List Char)
  | '-' :: rest => (unsigned? rest).map fun (literal, rest) => ('-' :: literal, rest)
  | cs => unsigned? cs

/-! ## Documents -/

/-- Drops the white space that JSON allows between tokens. -/
def skipSpace (cs : List Char) : List Char :=
  cs.dropWhile fun c => c = ' ' || c = '\n' || c = '\t' || c = '\r'

mutual

/-- Reads a value at the head of the input. -/
def value? : Nat → List Char → Option (Json × List Char)
  | 0, _ => none
  | fuel + 1, cs =>
    match skipSpace cs with
    | 'n' :: 'u' :: 'l' :: 'l' :: rest => some (.null, rest)
    | 't' :: 'r' :: 'u' :: 'e' :: rest => some (.bool true, rest)
    | 'f' :: 'a' :: 'l' :: 's' :: 'e' :: rest => some (.bool false, rest)
    | '"' :: rest => do
      let (text, rest) ← literal? rest
      return (.string text, rest)
    | '[' :: rest =>
      match skipSpace rest with
      | ']' :: rest => some (.array [], rest)
      | rest => do
        let (items, rest) ← items? fuel rest
        return (.array items, rest)
    | '\x7b' :: rest =>
      match skipSpace rest with
      | '\x7d' :: rest => some (.object [], rest)
      | rest => do
        let (fields, rest) ← fields? fuel rest
        return (.object fields, rest)
    | rest => do
      let (literal, rest) ← number? rest
      return (.number literal, rest)

/-- Reads the items of an array, up to and including its closing bracket. -/
def items? : Nat → List Char → Option (List Json × List Char)
  | 0, _ => none
  | fuel + 1, cs => do
    let (item, rest) ← value? fuel cs
    match skipSpace rest with
    | ',' :: rest => do
      let (items, rest) ← items? fuel rest
      return (item :: items, rest)
    | ']' :: rest => return ([item], rest)
    | _ => none

/-- Reads the fields of an object, up to and including its closing brace. -/
def fields? : Nat → List Char → Option (List (Option String × Json) × List Char)
  | 0, _ => none
  | fuel + 1, cs =>
    match skipSpace cs with
    | '"' :: rest => do
      let (key, rest) ← literal? rest
      match skipSpace rest with
      | ':' :: rest => do
        let (item, rest) ← value? fuel rest
        match skipSpace rest with
        | ',' :: rest => do
          let (fields, rest) ← fields? fuel rest
          return ((key, item) :: fields, rest)
        | '\x7d' :: rest => return ([(key, item)], rest)
        | _ => none
      | _ => none
    | _ => none

end

/-- Reads a document that takes up the whole input, white space around it apart. Each item of an
array is reached in two steps, and every other step consumes a character, so the fuel suffices. -/
def parse? (text : String) : Option Json := do
  let cs := text.toList
  let (document, rest) ← value? (2 * cs.length + 2) cs
  if (skipSpace rest).isEmpty then some document else none

end Json

end SqlTree
