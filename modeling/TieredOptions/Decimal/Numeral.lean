/-
Reading decimal numerals: digit runs, and floats written as sign, digits with a point among them, and an exponent.
-/
import TieredOptions.Decimal.Binary

namespace TieredOptions.Decimal

/-- is the character an ASCII digit? -/
def isDigit (c : Char) : Bool := '0' ≤ c && c ≤ '9'

/-- the value of a digit in bases up to sixteen, either case -/
def digitValue (c : Char) : Nat :=
  if isDigit c then c.toNat - '0'.toNat
  else if 'a' ≤ c && c ≤ 'f' then c.toNat - 'a'.toNat + 10
  else c.toNat - 'A'.toNat + 10

/-- the number that a run of digits denotes -/
def ofDigits (base : Nat) (cs : List Char) : Nat := cs.foldl (fun n c => n * base + digitValue c) 0

/-- split a sign off, if there is one -/
def signed : List Char → Bool × List Char
  | '-' :: cs => (true, cs)
  | '+' :: cs => (false, cs)
  | cs => (false, cs)

/-- the exponent part of a numeral: nothing, or `e`, a sign and digits up to the end -/
def exponent? : List Char → Option Int
  | [] => some 0
  | e :: cs =>
    let (negative, digits) := signed cs
    if (e = 'e' ∨ e = 'E') ∧ digits ≠ [] ∧ digits.all isDigit then
      some (if negative then -(ofDigits 10 digits : Int) else ofDigits 10 digits)
    else none

/-- The float that a numeral denotes. There must be a digit before or after the point. -/
def Format.ofNumeral? (f : Format) (cs : List Char) : Option Floating :=
  let (negative, body) := signed cs
  let whole := body.takeWhile isDigit
  let (places, rest) := match body.dropWhile isDigit with
    | '.' :: tail => (tail.takeWhile isDigit, tail.dropWhile isDigit)
    | tail => ([], tail)
  if whole = [] ∧ places = [] then none
  else (exponent? rest).map fun e => f.ofDecimal negative (ofDigits 10 (whole ++ places)) (e - places.length)

/-- a float written as a numeral or as one of the words `inf`, `infinity` and `nan`, in any case -/
def Format.ofText? (f : Format) (s : String) : Option Floating :=
  let (negative, body) := signed s.toList
  let word := String.ofList (body.map Char.toLower)
  if word = "inf" ∨ word = "infinity" then some (.infinite negative)
  else if word = "nan" then some .nan
  else f.ofNumeral? s.toList

/-- an integer in decimal, with an optional sign -/
def int? (s : String) : Option Int :=
  let (negative, digits) := signed s.toList
  if digits ≠ [] ∧ digits.all isDigit then
    some (if negative then -(ofDigits 10 digits : Int) else ofDigits 10 digits)
  else none

end TieredOptions.Decimal
