/-
Dates and times of TOML: a date, a time, or both, and then an offset if one is given. `Datetime.text` writes them in the
form of RFC 3339 (`T` between date and time, no zeros at the end of the fraction); `Datetime.ofText?` reads that form
from a whole text, `Datetime.read?` from the front of one.
-/
import TieredOptions.Decimal.Numeral

namespace TieredOptions.Toml

open Decimal (isDigit ofDigits)

structure Date where
  year : Nat
  month : Nat
  day : Nat
  deriving DecidableEq, Repr

structure Time where
  hour : Nat
  minute : Nat
  second : Nat
  nanosecond : Nat
  deriving DecidableEq, Repr

/-- the distance from universal time -/
inductive Offset where
  | zulu
  | minutes (n : Int)
  deriving DecidableEq, Repr

/-- a date, a time, or both -/
structure Datetime where
  date : Option Date
  time : Option Time
  offset : Option Offset
  deriving DecidableEq, Repr

def daysIn (year month : Nat) : Nat :=
  if month = 2 then if year % 4 = 0 ∧ (year % 100 ≠ 0 ∨ year % 400 = 0) then 29 else 28
  else if month = 4 ∨ month = 6 ∨ month = 9 ∨ month = 11 then 30 else 31

def Date.valid (d : Date) : Bool := 1 ≤ d.month && d.month ≤ 12 && 1 ≤ d.day && d.day ≤ daysIn d.year d.month

/-! ## Writing -/

/-- `n` in at least `width` digits -/
def padded (width n : Nat) : String :=
  let text := toString n
  String.ofList (List.replicate (width - text.length) '0') ++ text

def Date.text (d : Date) : String := padded 4 d.year ++ "-" ++ padded 2 d.month ++ "-" ++ padded 2 d.day

/-- the fraction of a second without zeros at the end; nothing for a whole second -/
def fraction (nanosecond : Nat) : String :=
  if nanosecond = 0 then ""
  else "." ++ String.ofList ((padded 9 nanosecond).toList.reverse.dropWhile (· == '0')).reverse

def Time.text (t : Time) : String :=
  padded 2 t.hour ++ ":" ++ padded 2 t.minute ++ ":" ++ padded 2 t.second ++ fraction t.nanosecond

def Offset.text : Offset → String
  | .zulu => "Z"
  | .minutes n => (if n < 0 then "-" else "+") ++ padded 2 (n.natAbs / 60) ++ ":" ++ padded 2 (n.natAbs % 60)

def Datetime.text (d : Datetime) : String :=
  let date := match d.date with | some x => x.text | none => ""
  let time := match d.time with | some x => x.text | none => ""
  let offset := match d.offset with | some x => x.text | none => ""
  date ++ (if d.date.isSome && d.time.isSome then "T" else "") ++ time ++ offset

/-! ## Reading -/

/-- exactly `count` digits -/
def fixed? (count : Nat) (cs : List Char) : Option (Nat × List Char) :=
  let digits := cs.take count
  if digits.length = count ∧ digits.all isDigit then some (ofDigits 10 digits, cs.drop count) else none

def expect? (c : Char) : List Char → Option (List Char)
  | d :: cs => if d = c then some cs else none
  | [] => none

def Date.read? (cs : List Char) : Option (Date × List Char) := do
  let (year, cs) ← fixed? 4 cs
  let cs ← expect? '-' cs
  let (month, cs) ← fixed? 2 cs
  let cs ← expect? '-' cs
  let (day, cs) ← fixed? 2 cs
  let d : Date := ⟨year, month, day⟩
  if d.valid then some (d, cs) else none

/-- the digits after the point, of which the first nine count -/
def nanoseconds (digits : List Char) : Nat :=
  let kept := digits.take 9
  ofDigits 10 kept * Nat.pow 10 (9 - kept.length)

/-- A time of day; the hours end at 23, and a second may be the sixtieth. -/
def Time.read? (cs : List Char) : Option (Time × List Char) := do
  let (hour, cs) ← fixed? 2 cs
  let cs ← expect? ':' cs
  let (minute, cs) ← fixed? 2 cs
  let cs ← expect? ':' cs
  let (second, cs) ← fixed? 2 cs
  if 23 < hour ∨ 59 < minute ∨ 60 < second then none
  else match cs with
    | '.' :: tail =>
      let digits := tail.takeWhile isDigit
      if digits = [] then none
      else some (⟨hour, minute, second, nanoseconds digits⟩, tail.dropWhile isDigit)
    | _ => some (⟨hour, minute, second, 0⟩, cs)

/-- An offset, if one stands here. A sign must be followed by the hours and minutes of less than a day. -/
def Offset.read? (cs : List Char) : Option (Option Offset × List Char) :=
  match cs with
  | [] => some (none, [])
  | c :: tail =>
    if c = 'Z' ∨ c = 'z' then some (some .zulu, tail)
    else if c = '+' ∨ c = '-' then do
      let (hours, rest) ← fixed? 2 tail
      let rest ← expect? ':' rest
      let (past, rest) ← fixed? 2 rest
      if 23 < hours ∨ 59 < past then none
      else
        let total : Int := hours * 60 + past
        some (some (.minutes (if c = '-' then -total else total)), rest)
    else some (none, cs)

/-- may the character stand between a date and a time? -/
def isTimeMark (c : Char) : Bool := c == 'T' || c == 't' || c == ' '

/-- Does the text begin as a time does: two digits and a colon? -/
def beginsTime (cs : List Char) : Bool :=
  match cs with
  | h :: h' :: c :: _ => isDigit h && isDigit h' && c == ':'
  | _ => false

/-- Does the text begin as a date does: four digits and a dash? -/
def beginsDate (cs : List Char) : Bool :=
  match fixed? 4 cs with
  | some (_, '-' :: _) => true
  | _ => false

/-- The date-time at the front of a text that begins as one. After a date, a mark that is not followed by a time is left
    standing. -/
def Datetime.read? (cs : List Char) : Option (Datetime × List Char) :=
  if beginsTime cs then (Time.read? cs).map fun (t, rest) => (⟨none, some t, none⟩, rest)
  else do
    let (d, rest) ← Date.read? cs
    match rest with
    | c :: tail =>
      if isTimeMark c && beginsTime tail then do
        let (t, rest) ← Time.read? tail
        let (o, rest) ← Offset.read? rest
        some (⟨some d, some t, o⟩, rest)
      else some (⟨some d, none, none⟩, rest)
    | [] => some (⟨some d, none, none⟩, [])

/-- The date-time that a whole text is. -/
def Datetime.ofText? (s : String) : Option Datetime :=
  match Datetime.read? s.toList with
  | some (d, []) => some d
  | _ => none

end TieredOptions.Toml
