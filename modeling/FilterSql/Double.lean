/-!
Double-precision numbers as their 64 bits. A finite magnitude is `significand * 2 ^ power`; rounding
and the two operations that reading a decimal needs are exact integer arithmetic followed by one
rounding to nearest, ties to even, so every value here can be computed inside a proof.
-/

namespace FilterSql

def twoTo (exponent : Nat) : Nat := Nat.pow 2 exponent

def tenTo (exponent : Nat) : Nat := Nat.pow 10 exponent

structure Double where
  bits : UInt64
  deriving DecidableEq

namespace Double

def infinityBits : Nat := 2047 * twoTo 52

def ofMagnitudeBits (negative : Bool) (magnitude : Nat) : Double :=
  ⟨UInt64.ofNat (if negative then twoTo 63 + magnitude else magnitude)⟩

def isNegative (x : Double) : Bool := twoTo 63 ≤ x.bits.toNat

def magnitudeBits (x : Double) : Nat := x.bits.toNat % twoTo 63

def exponentField (x : Double) : Nat := x.magnitudeBits / twoTo 52

def fraction (x : Double) : Nat := x.magnitudeBits % twoTo 52

def isZero (x : Double) : Bool := x.magnitudeBits = 0

def isFinite (x : Double) : Bool := x.magnitudeBits < infinityBits

def isInfinite (x : Double) : Bool := x.magnitudeBits = infinityBits

def significand (x : Double) : Nat :=
  if x.exponentField = 0 then x.fraction else twoTo 52 + x.fraction

/-- Subnormal numbers share the power of the smallest normal ones. -/
def power (x : Double) : Int := max x.exponentField 1 - 1075

def negate (x : Double) : Double :=
  ofMagnitudeBits (!x.isNegative) x.magnitudeBits

/-- The magnitude of a finite number as numerator and denominator. -/
def ratio (x : Double) : Nat × Nat :=
  (x.significand * twoTo x.power.toNat, twoTo (-x.power).toNat)

/-- The integer nearest to `numerator / denominator`; a half goes to the even neighbour. -/
def roundHalfEven (numerator denominator : Nat) : Nat :=
  let quotient := numerator / denominator
  let twice := 2 * (numerator % denominator)
  if denominator < twice ∨ (denominator = twice ∧ quotient % 2 = 1) then quotient + 1 else quotient

/-- The number nearest to `numerator / denominator`. Of the powers `low` and `low + 1` the one that
leaves at most 53 bits is taken; a carry out of the significand moves into the exponent. -/
def nearest (negative : Bool) (numerator denominator : Nat) : Double :=
  if numerator = 0 then
    ofMagnitudeBits negative 0
  else
    let spread : Int := numerator.log2 - denominator.log2
    let low : Int := max (spread - 53) (-1074)
    let scaled (power : Int) : Nat × Nat :=
      (numerator * twoTo (-power).toNat, denominator * twoTo power.toNat)
    let fits := (scaled low).1 < twoTo 53 * (scaled low).2
    let power := if fits then low else low + 1
    let significand := roundHalfEven (scaled power).1 (scaled power).2
    ofMagnitudeBits negative (min infinityBits ((power + 1074).toNat * twoTo 52 + significand))

def ofInt (value : Int) : Double := nearest (value < 0) value.natAbs 1

/-- The magnitude of the product of two finite numbers. -/
def mul (x y : Double) : Double :=
  nearest false (x.ratio.1 * y.ratio.1) (x.ratio.2 * y.ratio.2)

/-- The magnitude of the quotient of a finite number by a finite nonzero one. -/
def div (x y : Double) : Double :=
  nearest false (x.ratio.1 * y.ratio.2) (x.ratio.2 * y.ratio.1)

def powerOfTen (exponent : Nat) : Double := nearest false (tenTo exponent) 1

/-- Scales a magnitude by a power of ten with one rounded operation, after as many divisions by
`10 ^ 308` as bring a very low exponent into reach. There is no value above the largest number. -/
def scaleTen? (x : Double) (exponent : Int) : Option Double :=
  if x.isZero then
    some x
  else if 308 < exponent then
    none
  else if 0 ≤ exponent then
    let scaled := x.mul (powerOfTen exponent.toNat)
    if scaled.isInfinite then none else some scaled
  else if -308 ≤ exponent then
    some (x.div (powerOfTen (-exponent).toNat))
  else
    scaleTen? (x.div (powerOfTen 308)) (exponent + 308)
termination_by (-exponent).toNat

/-- The number read for the decimal `significand * 10 ^ exponent`. -/
def ofDecimal? (negative : Bool) (significand : Nat) (exponent : Int) : Option Double :=
  (scaleTen? (nearest false significand 1) exponent).map fun x => if negative then x.negate else x

end Double

end FilterSql
