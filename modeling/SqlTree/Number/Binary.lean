/-!
# Binary floating point numbers by their bits

Numbers of the IEEE 754 interchange formats binary32 and binary64, held as bit patterns. Nothing
is computed with them: they are compared as numbers, told apart by their bits, and a binary32 is
widened to the binary64 of the same value.
-/

namespace SqlTree

structure Binary64 where
  bits : UInt64
  deriving DecidableEq, Repr

structure Binary32 where
  bits : UInt32
  deriving DecidableEq, Repr

namespace Binary64

/-- The sign bit: set for negative numbers, including minus zero. -/
def isNegative (x : Binary64) : Bool :=
  x.bits.toNat >>> 63 == 1

def exponentField (x : Binary64) : Nat :=
  (x.bits.toNat >>> 52) % 2048

def fractionField (x : Binary64) : Nat :=
  x.bits.toNat % (1 <<< 52)

def pack (negative : Bool) (exponent fraction : Nat) : Binary64 :=
  ⟨.ofNat ((negative.toNat <<< 63) + (exponent <<< 52) + fraction)⟩

def isNaN (x : Binary64) : Bool :=
  x.exponentField == 2047 && x.fractionField != 0

def isInfinite (x : Binary64) : Bool :=
  x.exponentField == 2047 && x.fractionField == 0

def isZero (x : Binary64) : Bool :=
  x.exponentField == 0 && x.fractionField == 0

/-- Equality of numbers: no number equals a NaN, and the two zeros are equal. -/
def numEq (x y : Binary64) : Bool :=
  !x.isNaN && !y.isNaN && (x == y || x.isZero && y.isZero)

end Binary64

namespace Binary32

/-- The binary64 number of the same value. Every binary32 number has one; a NaN keeps its sign and
payload and becomes quiet. -/
def widen (x : Binary32) : Binary64 :=
  let bits := x.bits.toNat
  let negative := bits >>> 31 == 1
  let exponent := (bits >>> 23) % 256
  let fraction := bits % (1 <<< 23)
  if exponent == 255 then
    if fraction == 0 then .pack negative 2047 0
    else .pack negative 2047 ((1 <<< 51) + ((fraction % (1 <<< 22)) <<< 29))
  else if exponent == 0 then
    if fraction == 0 then .pack negative 0 0
    else
      -- below the normal range the leading bit of the fraction takes the place of the hidden one
      let lead := fraction.log2
      .pack negative (lead + 1023 - 149) ((fraction - (1 <<< lead)) <<< (52 - lead))
  else .pack negative (exponent + 1023 - 127) (fraction <<< 29)

end Binary32

end SqlTree
