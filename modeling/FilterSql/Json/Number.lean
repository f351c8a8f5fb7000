import FilterSql.Json.Basic

/-!
Reading JSON number literals. Digits are gathered into 64 bits: a whole part that does not fit keeps
its magnitude through the exponent, and fraction digits that do not fit are dropped. A literal
beyond the largest double is refused.
-/

namespace FilterSql.JsonNumber

/-- Appends decimal digits to `start` while the result fits 64 bits. The second component counts the
digits that were taken. -/
def gather (start : Nat) : List Char → Nat × Nat
  | [] => (start, 0)
  | digit :: digits =>
    let next := start * 10 + (digit.toNat - '0'.toNat)
    if next < UInt64.size then
      let (result, taken) := gather next digits
      (result, taken + 1)
    else
      (start, 0)

/-- The parts of a literal `-whole.fractionEexponent`. -/
structure Literal where
  negative : Bool
  whole : List Char
  fraction : Option (List Char)
  exponent : Option Int

namespace Literal

/-- A non-empty run of digits and what follows it. -/
def digits? (cs : List Char) : Option (List Char × List Char) :=
  match cs.takeWhile Char.isDigit with
  | [] => none
  | digits => some (digits, cs.dropWhile Char.isDigit)

/-- Digits without a superfluous leading zero. -/
def whole? (cs : List Char) : Option (List Char × List Char) :=
  match digits? cs with
  | some ('0' :: _ :: _, _) => none
  | other => other

def fraction? (cs : List Char) : Option (Option (List Char) × List Char) :=
  match cs with
  | '.' :: tail => (digits? tail).map fun (digits, rest) => (some digits, rest)
  | _ => some (none, cs)

def exponentDigits? (negative : Bool) (cs : List Char) : Option (Option Int × List Char) :=
  (digits? cs).map fun (digits, rest) =>
    let magnitude : Int := Nat.ofDigitChars 10 digits 0
    (some (if negative then -magnitude else magnitude), rest)

def exponent? (cs : List Char) : Option (Option Int × List Char) :=
  match cs with
  | mark :: tail =>
    if mark = 'e' ∨ mark = 'E' then
      match tail with
      | '-' :: digits => exponentDigits? true digits
      | '+' :: digits => exponentDigits? false digits
      | digits => exponentDigits? false digits
    else
      some (none, cs)
  | [] => some (none, cs)

def unsigned? (negative : Bool) (cs : List Char) : Option Literal :=
  match whole? cs with
  | none => none
  | some (whole, rest) =>
    match fraction? rest with
    | none => none
    | some (fraction, rest) =>
      match exponent? rest with
      | some (exponent, []) => some ⟨negative, whole, fraction, exponent⟩
      | _ => none

/-- The parts of a text that is a literal from end to end. -/
def ofChars? : List Char → Option Literal
  | '-' :: cs => unsigned? true cs
  | cs => unsigned? false cs

def isInteger (literal : Literal) : Bool :=
  literal.fraction.isNone && literal.exponent.isNone

/-- A whole literal that fits 64 bits; a negative one also has to be nonzero and to fit with its
sign. -/
def integer? (literal : Literal) : Option Int :=
  let (magnitude, taken) := gather 0 literal.whole
  if literal.isInteger ∧ taken = literal.whole.length then
    if literal.negative then
      if 0 < magnitude ∧ Int64.minValue.toInt ≤ -magnitude then some (-magnitude) else none
    else
      some magnitude
  else
    none

def float? (literal : Literal) : Option Double :=
  let (whole, taken) := gather 0 literal.whole
  let (significand, places) := gather whole (literal.fraction.getD [])
  let dropped : Int := literal.whole.length - taken
  Double.ofDecimal? literal.negative significand (dropped - places + literal.exponent.getD 0)

def value? (literal : Literal) : Option JsonNumber :=
  match literal.integer? with
  | some value => some (.int value)
  | none => literal.float?.map .float

end Literal

def ofChars? (cs : List Char) : Option JsonNumber :=
  (Literal.ofChars? cs).bind Literal.value?

end FilterSql.JsonNumber
