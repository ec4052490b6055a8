/-
Moments in universal time, and their text: date and time of day with as many digits of a second as are needed, by
threes. Days are counted from the start of 1970 in the Gregorian calendar, which is extended to all years.
-/

namespace TieredOptions

/-- A moment: seconds since the start of 1970, and nanoseconds after that; from 10^9 on they lie in a leap second. -/
structure Instant where
  seconds : Int
  nanos : Nat
  deriving DecidableEq, Repr

namespace Instant

structure Date where
  year : Int
  month : Nat
  day : Nat
  deriving DecidableEq, Repr

/-- The date of a day counted from the start of 1970. Years are taken to start in March: then the leap day is the last
    of its year, four centuries have 146097 days, and five months from March or August on have 153. -/
def Date.ofDay (day : Int) : Date :=
  let fromMarch := day + 719468
  let cycle := fromMarch / 146097
  let inCycle := (fromMarch % 146097).toNat
  let year := (inCycle - inCycle / 1460 + inCycle / 36524 - inCycle / 146096) / 365
  let inYear := inCycle - (365 * year + year / 4 - year / 100)
  let month := (5 * inYear + 2) / 153
  let inMonth := inYear - (153 * month + 2) / 5
  if month < 10 then ⟨cycle * 400 + year, month + 3, inMonth + 1⟩ else ⟨cycle * 400 + year + 1, month - 9, inMonth + 1⟩

/-- a number in at least so many digits -/
def digits (width n : Nat) : String :=
  let cs := Nat.toDigits 10 n
  String.ofList (List.replicate (width - cs.length) '0' ++ cs)

/-- A year in at least four digits, with a sign if four do not do or it lies before the year 0. -/
def yearText (year : Int) : String :=
  let sign := if year < 0 then "-" else if 9999 < year then "+" else ""
  sign ++ digits 4 year.natAbs

/-- a fraction of a second, given in nanoseconds -/
def fractionText (nanos : Nat) : String :=
  if nanos = 0 then ""
  else if nanos % 1000000 = 0 then "." ++ digits 3 (nanos / 1000000)
  else if nanos % 1000 = 0 then "." ++ digits 6 (nanos / 1000)
  else "." ++ digits 9 nanos

def text (t : Instant) : String :=
  let date := Date.ofDay (t.seconds / 86400)
  let s := (t.seconds % 86400).toNat
  yearText date.year ++ "-" ++ digits 2 date.month ++ "-" ++ digits 2 date.day ++ "T" ++ digits 2 (s / 3600) ++ ":" ++
    digits 2 (s / 60 % 60) ++ ":" ++ digits 2 (s % 60 + t.nanos / 1000000000) ++
    fractionText (t.nanos % 1000000000) ++ "Z"

example : Date.ofDay 0 = ⟨1970, 1, 1⟩ := by decide
example : Date.ofDay 11016 = ⟨2000, 2, 29⟩ := by decide
example : Date.ofDay (-719529) = ⟨-1, 12, 31⟩ := by decide

end Instant

end TieredOptions
