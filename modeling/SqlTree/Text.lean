/-!
# Text

The texts that a formatter deals with: white space, quoted identifiers, a buffer to write to, padded
numbers, and string literals for descriptions.
-/

namespace SqlTree

/-! ## White space -/

namespace Blank

/-- The ranges of characters with the Unicode property `White_Space`, in order. -/
def ranges : List (Nat × Nat) :=
  [(0x9, 0xD), (0x20, 0x20), (0x85, 0x85), (0xA0, 0xA0), (0x1680, 0x1680), (0x2000, 0x200A),
    (0x2028, 0x2029), (0x202F, 0x202F), (0x205F, 0x205F), (0x3000, 0x3000)]

def isBlank (c : Char) : Bool :=
  ranges.any fun range => range.1 ≤ c.toNat && c.toNat ≤ range.2

def trim (text : List Char) : List Char :=
  ((text.dropWhile isBlank).reverse.dropWhile isBlank).reverse

end Blank

/-! ## Quoted identifiers

An identifier is written between two quote characters, and a quote character inside it is written
twice, so that the end of the identifier is always the first quote that is not doubled.
-/

namespace Quoted

/-- The characters of an identifier with every quote character doubled. -/
def double (quote : Char) : List Char → List Char
  | [] => []
  | c :: rest => if c = quote then quote :: quote :: double quote rest else c :: double quote rest

def enclose (quote : Char) (name : List Char) : List Char :=
  quote :: double quote name ++ [quote]

def encode (quote : Char) (name : String) : String :=
  .ofList (enclose quote name.toList)

end Quoted

/-! ## Buffers

A buffer is written at its end only, but its last character may be taken back. It is kept last
character first, so that both take one step; `toList` is the text in reading order.
-/

structure Buffer where
  /-- The characters written so far, the last one first. -/
  reversed : List Char := []
  deriving DecidableEq, Repr

namespace Buffer

def toList (buffer : Buffer) : List Char :=
  buffer.reversed.reverse

def text (buffer : Buffer) : String :=
  .ofList buffer.toList

def append (buffer : Buffer) (text : List Char) : Buffer :=
  ⟨text.reverse ++ buffer.reversed⟩

/-- Takes back one blank at the end, if there is one. -/
def dropBlank (buffer : Buffer) : Buffer :=
  match buffer.reversed with
  | ' ' :: rest => ⟨rest⟩
  | _ => buffer

@[simp]
theorem toList_append (buffer : Buffer) (text : List Char) :
    (buffer.append text).toList = buffer.toList ++ text := by
  simp [toList, append]

/-- A blank that was just written is taken back. -/
@[simp]
theorem dropBlank_append_blank (buffer : Buffer) : (buffer.append [' ']).dropBlank = buffer :=
  rfl

end Buffer

/-! ## Numbers and string literals -/

/-- A number with at least `width` digits, filled up with zeros on the left. -/
def Padded.digits (width : Nat) (n : Nat) : String :=
  let text := toString n
  String.ofList (.replicate (width - text.length) '0') ++ text

namespace Literal

def hex (n : Nat) : String :=
  .ofList (Nat.toDigits 16 n)

/-- A character as it stands in a literal. The rule covers ASCII: all other characters stand for
themselves. -/
def escape (c : Char) : String :=
  match c with
  | '"' => "\\\""
  | '\\' => "\\\\"
  | '\n' => "\\n"
  | '\r' => "\\r"
  | '\t' => "\\t"
  | '\x00' => "\\0"
  | c =>
    if c.toNat < 0x20 || c.toNat = 0x7f then "\\u\x7b" ++ hex c.toNat ++ "\x7d"
    else .ofList [c]

def quote (text : String) : String :=
  "\"" ++ String.join (text.toList.map escape) ++ "\""

end Literal

end SqlTree
