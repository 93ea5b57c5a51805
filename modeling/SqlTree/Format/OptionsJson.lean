import SqlTree.Format.Options
import SqlTree.Json.Basic

/-!
# Layout options as JSON

Options are written as an object with the keys `beautify` and `indent_size`. They are read from
such an object, in which parts may be missing and other keys are passed over, or from an array of
the parts in that order. A part that is missing has its default.
-/

namespace SqlTree.FormatOptions

def decimalValue (digits : List Char) : Nat :=
  digits.foldl (fun n c => n * 10 + (c.toNat - '0'.toNat)) 0

def readFlag? : Json → Option Bool
  | .bool b => some b
  | _ => none

/-- Reads a number of blanks: digits only, and no more than a 64-bit number. -/
def readSize? : Json → Option UInt64
  | .number literal =>
    if literal.all Char.isDigit && decimalValue literal < UInt64.size then
      some (.ofNat (decimalValue literal))
    else none
  | _ => none

/-- The part under a key, or its default. A key may not be repeated. -/
def readField? {α : Type} (fields : List (Option String × Json)) (key : String)
    (read : Json → Option α) (default : α) : Option α :=
  match fields.filter fun field => field.1 == some key with
  | [] => some default
  | [(_, json)] => read json
  | _ => none

/-- Reads options from a JSON document. Every key of an object must have a text. -/
def ofJson? : Json → Option FormatOptions
  | .object fields => do
    guard (fields.all fun field => field.1.isSome)
    let beautify ← readField? fields "beautify" readFlag? compact.beautify
    let indentSize ← readField? fields "indent_size" readSize? compact.indentSize
    return { beautify, indentSize }
  | .array [] => some compact
  | .array [flag] => do
    let beautify ← readFlag? flag
    return { compact with beautify }
  | .array [flag, size] => do
    let beautify ← readFlag? flag
    let indentSize ← readSize? size
    return { beautify, indentSize }
  | _ => none

def parse? (text : String) : Option FormatOptions :=
  (Json.parse? text).bind ofJson?

def toJson (options : FormatOptions) : String :=
  let flag := if options.beautify then "true" else "false"
  let size := toString options.indentSize.toNat
  "\x7b\"beautify\":" ++ flag ++ ",\"indent_size\":" ++ size ++ "\x7d"

end SqlTree.FormatOptions
