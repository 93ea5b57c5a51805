import SqlTree.Format.Statement
import SqlTree.Number.Shortest
import SqlTree.Text

/-!
# Descriptions of formatters

The state of a formatter in one line, for the eyes of a programmer: every record and every variant
by its name, with its fields.
-/

namespace SqlTree.Describe

def record (name : String) (fields : List (String × String)) : String :=
  let body := String.intercalate ", " (fields.map fun field => field.1 ++ ": " ++ field.2)
  name ++ " \x7b " ++ body ++ " \x7d"

def variant (name : String) (field : String) : String :=
  name ++ "(" ++ field ++ ")"

def list (items : List String) : String :=
  "[" ++ String.intercalate ", " items ++ "]"

def bool (b : Bool) : String :=
  if b then "true" else "false"

def optionalSize : Option Nat → String
  | none => "None"
  | some n => variant "Some" (toString n)

def sqlType : SqlType → String
  | .boolean => "Boolean"
  | .int => "Int"
  | .long => "Long"
  | .float => "Float"
  | .double => "Double"
  | .decimal precision scale =>
    record "Decimal" [("precision", optionalSize precision), ("scale", optionalSize scale)]
  | .varchar length => variant "Varchar" (optionalSize length)
  | .text => "Text"
  | .blob => "Blob"
  | .date => "Date"
  | .time => "Time"
  | .timestamp => "Timestamp"
  | .custom name => variant "Custom" (Literal.quote name)

def value : Value → String
  | .null => "Null"
  | .bool b => variant "Bool" (bool b)
  | .int n => variant "Int" (toString n.toInt)
  | .float x => variant "Float" x.text
  | .text s => variant "Text" (Literal.quote s)
  | .blob bytes => variant "Blob" (list (bytes.toList.map fun byte => toString byte.toNat))
  | .date d => variant "Date" d.text
  | .time t => variant "Time" t.text
  | .timestamp t => variant "Timestamp" t.text

def argument (a : Argument) : String :=
  record "ArgumentExpr" [("value", value a.value), ("sql_type", sqlType a.type)]

def options (o : FormatOptions) : String :=
  record "FormatOptions"
    [("beautify", bool o.beautify), ("indent_size", toString o.indentSize.toNat)]

/-- A formatter at work in the style of a dialect. -/
def formatter (style : Style) (f : Formatter) : String :=
  record "SqlFormatter"
    [("dialect", Literal.quote style.dialect), ("options", options style.options),
      ("sql", Literal.quote f.sql), ("parameters", list (f.parameters.toList.map argument)),
      ("depth", toString f.depth)]

end SqlTree.Describe
