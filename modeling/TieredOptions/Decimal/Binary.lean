/-
Binary floating point without floating point arithmetic. Every finite number of a binary format is an integer multiple
of the format's smallest positive number; a float is therefore a sign and a natural number of such units, an infinity,
or the not-a-number. Rounding to the format is done on naturals and is exact: nearest, ties to even.
-/

namespace TieredOptions.Decimal

/-- a binary format: its precision in bits, and `scale` such that the smallest positive number is `2 ^ -scale` -/
structure Format where
  precision : Nat
  scale : Nat
  /-- the largest finite number has the top bit `2 ^ (top - 1)`, in units -/
  top : Nat
  deriving DecidableEq, Repr

/-- single precision: 24 bits, units of `2 ^ -149` -/
def Format.single : Format := ⟨24, 149, 149 + 128⟩

/-- double precision: 53 bits, units of `2 ^ -1074` -/
def Format.double : Format := ⟨53, 1074, 1074 + 1024⟩

/-- a finite float: its sign (kept for zero as well) and its magnitude in units of its format -/
structure Finite where
  negative : Bool
  units : Nat
  deriving DecidableEq, Repr

/-- a float of some format -/
inductive Floating where
  | nan
  | infinite (negative : Bool)
  | finite (x : Finite)
  deriving DecidableEq, Repr

/-- the quotient rounded to the nearest natural, a half to the even neighbour -/
def roundDiv (num den : Nat) : Nat :=
  let q := num / den
  let r := num % den
  if 2 * r < den then q else if den < 2 * r then q + 1 else if q % 2 = 0 then q else q + 1

/-- `num / den` rounded to a natural with at most `precision` significant bits -/
def roundBits (precision num den : Nat) : Nat :=
  let drop := (num / den).log2 + 1 - precision
  roundDiv num (den * Nat.pow 2 drop) * Nat.pow 2 drop

/-- the float of the format nearest to `num / den`, with the given sign -/
def Format.round (f : Format) (negative : Bool) (num den : Nat) : Floating :=
  let units := roundBits f.precision (num * Nat.pow 2 f.scale) den
  if units < Nat.pow 2 f.top then .finite ⟨negative, units⟩ else .infinite negative

def Format.ofInt (f : Format) (n : Int) : Floating := f.round (n < 0) n.natAbs 1

/-- Magnitudes of this many decimal digits before the point are beyond every format here, and so are, on the small side,
    those with as many zeros after it. -/
def farOut : Int := 1000

/-- the float nearest to `digits * 10 ^ exponent`, with the given sign -/
def Format.ofDecimal (f : Format) (negative : Bool) (digits : Nat) (exponent : Int) : Floating :=
  if digits = 0 then .finite ⟨negative, 0⟩
  else if farOut < exponent then .infinite negative
  else if exponent + ((digits.log2 : Nat) : Int) < -farOut then .finite ⟨negative, 0⟩
  else match exponent with
    | .ofNat e => f.round negative (digits * Nat.pow 10 e) 1
    | .negSucc e => f.round negative digits (Nat.pow 10 (e + 1))

end TieredOptions.Decimal
