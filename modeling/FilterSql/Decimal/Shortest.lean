import FilterSql.Double

/-!
The shortest decimal that reads back as a given double. The decimals of exponent `e` form a grid;
going from coarse grids to fine ones, the first grid with a point in the interval of reals that
round to the number supplies the digits. Only the two neighbours of the number on that grid can be
the nearest point, and when both lie in the interval the nearer one is taken.
-/

namespace FilterSql

/-- `significand * 10 ^ exponent`. -/
structure Decimal where
  significand : Nat
  exponent : Int
  deriving DecidableEq

namespace Decimal

/-- Which neighbour is taken when the number lies halfway between the two. -/
inductive Tie where
  | toEven
  | upward
  deriving DecidableEq

end Decimal

namespace Double

/-- The interval of reals that round to a finite nonzero number: its ends and the number itself, as
numerators over `denominator`. The ends belong to it exactly when the significand is even. -/
structure RoundingInterval where
  low : Nat
  middle : Nat
  high : Nat
  denominator : Nat
  closed : Bool

/-- Below a power of two the spacing halves, so the lower end is half as far away. -/
def roundingInterval (x : Double) : RoundingInterval :=
  let below := if x.fraction = 0 ∧ 1 < x.exponentField then 1 else 2
  let scale := twoTo x.power.toNat
  { low := (4 * x.significand - below) * scale
    middle := 4 * x.significand * scale
    high := (4 * x.significand + 2) * scale
    denominator := 4 * twoTo (-x.power).toNat
    closed := x.significand % 2 = 0 }

namespace RoundingInterval

/-- Membership of `point * 10 ^ exponent`. -/
def admits (interval : RoundingInterval) (point : Nat) (exponent : Int) : Bool :=
  let value := point * tenTo exponent.toNat * interval.denominator
  let unit := tenTo (-exponent).toNat
  if interval.closed then
    interval.low * unit ≤ value ∧ value ≤ interval.high * unit
  else
    interval.low * unit < value ∧ value < interval.high * unit

/-- The grid point of the interval that is nearest to the number, if there is one. -/
def pointOnGrid? (interval : RoundingInterval) (tie : Decimal.Tie) (exponent : Int) : Option Nat :=
  let numerator := interval.middle * tenTo (-exponent).toNat
  let denominator := interval.denominator * tenTo exponent.toNat
  let lower := numerator / denominator
  let twice := 2 * (numerator % denominator)
  let upperFirst :=
    denominator < twice ∨ (denominator = twice ∧ (tie = .upward ∨ lower % 2 = 1))
  let candidates := if upperFirst then [lower + 1, lower] else [lower, lower + 1]
  candidates.find? fun point => interval.admits point exponent

/-- Searches the grids from exponent `steps - 1074` down. Every double lies on the last one. -/
def search (interval : RoundingInterval) (tie : Decimal.Tie) : (steps : Nat) → Decimal
  | 0 => ⟨interval.middle * tenTo 1074 / interval.denominator, -1074⟩
  | steps + 1 =>
    match interval.pointOnGrid? tie (steps + 1 - 1074) with
    | some point => ⟨point, steps + 1 - 1074⟩
    | none => interval.search tie steps

end RoundingInterval

/-- An exponent of ten above the number, from its exponent of two. -/
def decimalBound (x : Double) : Int :=
  (x.significand.log2 + 1 + x.power) * 30103 / 100000 + 2

def shortest (tie : Decimal.Tie) (x : Double) : Decimal :=
  if x.isZero then ⟨0, 0⟩ else x.roundingInterval.search tie (x.decimalBound + 1074).toNat

end Double

end FilterSql
