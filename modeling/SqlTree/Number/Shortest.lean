import SqlTree.Number.Binary

/-!
# Shortest decimal text of a binary number

The fewest decimal digits that read back as the same number, and of those the nearest ones. A
finite number is taken apart into `mantissa * 2 ^ exponent`, and decimals are tested against the
interval of reals that round to it in exact integer arithmetic.
-/

namespace SqlTree

/-- The number `digits * 10 ^ exponent`. -/
structure Decimal where
  digits : Nat
  exponent : Int
  deriving DecidableEq, Repr

namespace Binary64

/-- The mantissa of a finite number, with the hidden bit. -/
def mantissa (x : Binary64) : Nat :=
  if x.exponentField == 0 then x.fractionField else (1 <<< 52) + x.fractionField

/-- The power of two that the mantissa is multiplied by. -/
def scale (x : Binary64) : Int :=
  if x.exponentField == 0 then -1074 else (x.exponentField : Int) - 1075

end Binary64

namespace Shortest

/-- The integers that stand to each other as `a * 2 ^ p` to `b * 10 ^ e`. -/
def crossMultiply (a : Nat) (p : Int) (b : Nat) (e : Int) : Nat × Nat :=
  (a * Nat.pow 2 p.toNat * Nat.pow 10 (-e).toNat,
    b * Nat.pow 10 e.toNat * Nat.pow 2 (-p).toNat)

/-- The real numbers that round to a given number: four times its mantissa and the two ends, all in
units of `2 ^ scale`. The ends belong to the interval if the mantissa is even. -/
structure Interval where
  low : Nat
  middle : Nat
  high : Nat
  closed : Bool
  scale : Int

/-- The interval of a finite number above zero. Below a power of two the numbers lie twice as dense
as above it. -/
def interval (x : Binary64) : Interval where
  low := 4 * x.mantissa - (if x.fractionField == 0 && 1 < x.exponentField then 1 else 2)
  middle := 4 * x.mantissa
  high := 4 * x.mantissa + 2
  closed := x.mantissa % 2 == 0
  scale := x.scale - 2

def Interval.contains (i : Interval) (d : Decimal) : Bool :=
  let (low, value) := crossMultiply i.low i.scale d.digits d.exponent
  let (high, value') := crossMultiply i.high i.scale d.digits d.exponent
  (low < value || i.closed && low == value) && (value' < high || i.closed && value' == high)

/-- The exponent of the leading decimal digit, between the extremes of the format. -/
def leadingExponent (i : Interval) : Int :=
  let isAtMost (e : Int) : Bool :=
    let (value, power) := crossMultiply i.middle i.scale 1 e
    power ≤ value
  ((List.range 633).map fun (k : Nat) => 308 - (k : Int)).find? isAtMost |>.getD (-324)

/-- The nearest decimal in the interval among those with the last digit at `exponent`. -/
def onGrid (i : Interval) (exponent : Int) : Option Decimal :=
  let (value, unit) := crossMultiply i.middle i.scale 1 exponent
  let below : Decimal := ⟨value / unit, exponent⟩
  let above : Decimal := ⟨value / unit + 1, exponent⟩
  let isBelowNearer : Bool := 2 * (value % unit) < unit
  match i.contains below, i.contains above with
  | true, true => some (if isBelowNearer then below else above)
  | true, false => some below
  | false, true => some above
  | false, false => none

/-- The shortest decimal in the interval. Seventeen digits always suffice. -/
def ofInterval (i : Interval) : Decimal :=
  let lead := leadingExponent i
  ((List.range 17).findSome? fun (n : Nat) => onGrid i (lead - (n : Int))).getD ⟨0, 0⟩

/-- The digits of a decimal without zeros at the end, and the exponent of the last one. -/
def stripZeros : Nat → Decimal → Decimal
  | 0, d => d
  | fuel + 1, d =>
    if d.digits != 0 && d.digits % 10 == 0 then
      stripZeros fuel ⟨d.digits / 10, d.exponent + 1⟩
    else d

/-- The number `digits * 10 ^ exponent` with a point in its place, and a zero wherever a side of the
point would be empty. -/
def positional (digits : String) (exponent : Int) : String :=
  if 0 ≤ exponent then digits ++ String.ofList (.replicate exponent.toNat '0') ++ ".0"
  else
    let places := (-exponent).toNat
    let padded := List.replicate (places + 1 - digits.length) '0' ++ digits.toList
    String.ofList (padded.take (padded.length - places)) ++ "."
      ++ String.ofList (padded.drop (padded.length - places))

/-- The number `digits * 10 ^ exponent` with a point after the first digit, if there are more, and
the power of ten of that digit. -/
def scientific (digits : String) (exponent : Int) : String :=
  let lead := exponent + (digits.length : Int) - 1
  let point := if digits.length = 1 then "" else "."
  String.ofList (digits.toList.take 1) ++ point ++ String.ofList (digits.toList.drop 1) ++ "e"
    ++ toString lead

end Shortest

namespace Binary64

/-- The shortest text of a number: positional from `0.0001` up to below `10 ^ 16`, with an exponent
beyond. -/
def text (x : Binary64) : String :=
  let sign := if x.isNegative then "-" else ""
  if x.isNaN then "NaN"
  else if x.isInfinite then sign ++ "inf"
  else if x.isZero then sign ++ "0.0"
  else
    let d := Shortest.stripZeros 17 (Shortest.ofInterval (Shortest.interval x))
    let digits := toString d.digits
    let lead := d.exponent + (digits.length : Int) - 1
    sign ++ (if -4 ≤ lead && lead < 16 then Shortest.positional digits d.exponent
      else Shortest.scientific digits d.exponent)

end Binary64

end SqlTree
