/-
The shortest decimal that reads back as a given float. The reals that round to a float form an interval around it (its
ends belong to it iff the float's significand is even). On the grid of decimals with one, two, three, … digits the two
neighbours of the float are tried in turn: the first grid with a hit wins, and of two hits the nearer. Where the float
stands in the middle of both, the caller says which one to take.
-/
import TieredOptions.Decimal.Binary

namespace TieredOptions.Decimal

/-- a positive number in decimal, `digits * 10 ^ exponent` -/
structure Expansion where
  digits : Nat
  exponent : Int
  deriving DecidableEq, Repr

/-- which neighbour is taken where both are equally near -/
inductive Tie where
  | up
  | even
  deriving DecidableEq, Repr

def digitCount (n : Nat) : Nat := (Nat.toDigits 10 n).length

/-- The reals that round to `units`, as quarters of a unit: those between `low` and `high`. -/
structure Interval where
  low : Nat
  high : Nat
  closed : Bool

/-- the interval that rounds to a positive magnitude -/
def Format.interval (f : Format) (units : Nat) : Interval :=
  let step := Nat.pow 2 (units.log2 + 1 - f.precision)
  let below := if units = Nat.pow 2 units.log2 ∧ 1 < step then step else 2 * step
  ⟨4 * units - below, 4 * units + 2 * step, units / step % 2 = 0⟩

/-- `num / den` against the interval, both in quarters of a unit -/
def Interval.holds (i : Interval) (num den : Nat) : Bool :=
  if i.closed then i.low * den ≤ num && num ≤ i.high * den else i.low * den < num && num < i.high * den

/-- `n * 10 ^ e` as a quotient of naturals -/
def scaled (n : Nat) : Int → Nat × Nat
  | .ofNat e => (n * Nat.pow 10 e, 1)
  | .negSucc e => (n, Nat.pow 10 (e + 1))

/-- The decimal exponent of the first digit, plus one: the least `p` with `units * 2 ^ -scale < 10 ^ p`. -/
def Format.point (f : Format) (units : Nat) : Int :=
  let whole := units / Nat.pow 2 f.scale
  if whole ≠ 0 then digitCount whole
  else -- the number of digits that `scale` places have more than the integer units * 5 ^ scale
    (digitCount (units * Nat.pow 5 f.scale) : Int) - f.scale

/-- the same number without zeros at the end of its digits; `fuel` bounds their count -/
def Expansion.strip : Nat → Expansion → Expansion
  | 0, d => d
  | fuel + 1, d => if d.digits % 10 = 0 ∧ d.digits ≠ 0 then strip fuel ⟨d.digits / 10, d.exponent + 1⟩ else d

/-- The best decimal with the given grid `10 ^ exponent`, if one of the two neighbours reads back. -/
def Format.onGrid? (f : Format) (tie : Tie) (units : Nat) (exponent : Int) : Option Nat :=
  let i := f.interval units
  -- the float is num / den grid steps
  let num := units * (scaled 1 (-exponent)).1
  let den := Nat.pow 2 f.scale * (scaled 1 (-exponent)).2
  let below := num / den
  let quarters := fun n => ((scaled n exponent).1 * 4 * Nat.pow 2 f.scale, (scaled n exponent).2)
  let hit := fun n => n ≠ 0 && i.holds (quarters n).1 (quarters n).2
  match hit below, hit (below + 1) with
  | true, true =>
    if 2 * (num % den) < den ∨ (2 * (num % den) = den ∧ tie = .even ∧ below % 2 = 0) then some below
    else some (below + 1)
  | true, false => some below
  | false, true => some (below + 1)
  | false, false => none

/-- try grids of `count`, `count + 1`, … digits, `fuel` of them -/
def Format.search (f : Format) (tie : Tie) (units : Nat) (point : Int) : Nat → Nat → Expansion
  | 0, count => ⟨units / Nat.pow 2 f.scale, point - count⟩
  | fuel + 1, count =>
    match f.onGrid? tie units (point - count) with
    | some digits => Expansion.strip 20 ⟨digits, point - count⟩
    | none => search f tie units point fuel (count + 1)

/-- the shortest decimal that reads back as a positive magnitude; seventeen digits always suffice -/
def Format.shortest (f : Format) (tie : Tie) (units : Nat) : Expansion := f.search tie units (f.point units) 17 1

end TieredOptions.Decimal
