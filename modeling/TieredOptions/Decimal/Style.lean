/-
Writing floats. A style says when a number is written positionally and how its exponent is marked; the digits are
always the shortest that read back.
-/
import TieredOptions.Decimal.Shortest

namespace TieredOptions.Decimal

structure Style where
  /-- a number whose decimal point stands `p` places after its first digit is positional for `least ≤ p ≤ most` -/
  least : Int
  most : Int
  /-- what stands before a positive exponent -/
  plus : String
  /-- which of two equally near decimals is written -/
  tie : Tie
  deriving DecidableEq, Repr

/-- In configuration text numbers from 1e-5 up to below 1e16 are positional, and large exponents carry a plus sign. -/
def Style.config : Style := ⟨-4, 16, "+", .even⟩

/-- Shown to a reader, numbers from 1e-4 up to below 1e16 are positional, and exponents carry no plus sign. -/
def Style.display : Style := ⟨-3, 16, "", .up⟩

def zeros (n : Nat) : String := String.ofList (List.replicate n '0')

/-- The decimal written with a point: at least one digit on both sides of it. -/
def Expansion.positional (d : Expansion) : String :=
  let text := toString d.digits
  match d.exponent with
  | .ofNat e => text ++ zeros e ++ ".0"
  | .negSucc e =>
    let places := e + 1
    let cs := text.toList
    if places < cs.length then
      String.ofList (cs.take (cs.length - places)) ++ "." ++ String.ofList (cs.drop (cs.length - places))
    else "0." ++ zeros (places - cs.length) ++ text

/-- The decimal with one digit before the point and an exponent; no point after a single digit. -/
def Expansion.scientific (plus : String) (d : Expansion) : String :=
  let cs := (toString d.digits).toList
  let e : Int := d.exponent + cs.length - 1
  let mantissa := match cs with
    | c :: rest@(_ :: _) => String.ofList (c :: '.' :: rest)
    | _ => String.ofList cs
  mantissa ++ "e" ++ (if e < 0 then "-" else plus) ++ toString e.natAbs

def Style.expansion (s : Style) (d : Expansion) : String :=
  let point : Int := d.exponent + digitCount d.digits
  if s.least ≤ point ∧ point ≤ s.most then d.positional else d.scientific s.plus

def Style.finite (s : Style) (f : Format) (x : Finite) : String :=
  (if x.negative then "-" else "") ++ (if x.units = 0 then "0.0" else s.expansion (f.shortest s.tie x.units))

def Style.floating (s : Style) (f : Format) : Floating → String
  | .nan => "NaN"
  | .infinite negative => if negative then "-inf" else "inf"
  | .finite x => s.finite f x

end TieredOptions.Decimal
