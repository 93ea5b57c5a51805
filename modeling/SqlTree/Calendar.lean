import SqlTree.Text

/-!
# Calendar dates and times of day

Dates and times are carried through, never computed with, so they are plain records. Their texts
follow ISO 8601.
-/

namespace SqlTree

/-- A day of the proleptic Gregorian calendar. -/
structure Date where
  year : Int
  month : Nat
  day : Nat
  deriving DecidableEq, Repr

/-- A time of day. In a leap second the nanoseconds of second 59 go on beyond `999999999`. -/
structure Time where
  hour : Nat
  minute : Nat
  second : Nat
  nanosecond : Nat
  deriving DecidableEq, Repr

structure Timestamp where
  date : Date
  time : Time
  deriving DecidableEq, Repr

/-- A day as text. Years that do not have four digits carry a sign. -/
def Date.text (d : Date) : String :=
  let year :=
    if 0 ≤ d.year && d.year ≤ 9999 then Padded.digits 4 d.year.toNat
    else (if d.year < 0 then "-" else "+") ++ Padded.digits 4 d.year.natAbs
  year ++ "-" ++ Padded.digits 2 d.month ++ "-" ++ Padded.digits 2 d.day

/-- The part of a second, with as many groups of three digits as it needs. -/
def Time.fraction (nanosecond : Nat) : String :=
  if nanosecond = 0 then ""
  else if nanosecond % 1000000 = 0 then "." ++ Padded.digits 3 (nanosecond / 1000000)
  else if nanosecond % 1000 = 0 then "." ++ Padded.digits 6 (nanosecond / 1000)
  else "." ++ Padded.digits 9 nanosecond

/-- A time of day as text. A leap second is second 60. -/
def Time.text (t : Time) : String :=
  let second := t.second + t.nanosecond / 1000000000
  let nanosecond := t.nanosecond % 1000000000
  Padded.digits 2 t.hour ++ ":" ++ Padded.digits 2 t.minute ++ ":" ++ Padded.digits 2 second
    ++ Time.fraction nanosecond

def Timestamp.text (t : Timestamp) : String :=
  t.date.text ++ "T" ++ t.time.text

end SqlTree
