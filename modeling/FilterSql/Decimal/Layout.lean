import FilterSql.Decimal.Shortest

/-!
How the digits of a number are laid out: where the positional form ends and the exponent form
begins, and the marks each of them carries. A layout is one record; the modules that write a kind
of text name the layout they use.
-/

namespace FilterSql

namespace Decimal

structure Layout where
  tie : Tie
  /-- The lowest and highest power of the leading digit that is written positionally; without
  bounds every number is. -/
  positional : Option (Int × Int)
  /-- A whole number in positional form ends in `.0`. -/
  markWhole : Bool
  /-- A positive exponent carries its sign. -/
  markPositive : Bool

/-- The power of ten of the leading digit. -/
def leadingPower (digits : List Char) (exponent : Int) : Int := digits.length - 1 + exponent

def positionalText (layout : Layout) (digits : List Char) (exponent : Int) : List Char :=
  let before : Int := digits.length + exponent
  if 0 ≤ exponent then
    digits ++ List.replicate exponent.toNat '0' ++ if layout.markWhole then ['.', '0'] else []
  else if 0 < before then
    digits.take before.toNat ++ '.' :: digits.drop before.toNat
  else
    '0' :: '.' :: (List.replicate (-before).toNat '0' ++ digits)

def exponentText (layout : Layout) (digits : List Char) (exponent : Int) : List Char :=
  let power := leadingPower digits exponent
  let mantissa :=
    match digits with
    | first :: second :: others => first :: '.' :: second :: others
    | short => short
  let sign := if power < 0 then ['-'] else if layout.markPositive then ['+'] else []
  mantissa ++ 'e' :: sign ++ Nat.toDigits 10 power.natAbs

def magnitudeText (layout : Layout) (value : Decimal) : List Char :=
  let digits := Nat.toDigits 10 value.significand
  let power := leadingPower digits value.exponent
  match layout.positional with
  | none => positionalText layout digits value.exponent
  | some (lowest, highest) =>
    if value.significand = 0 ∨ (lowest ≤ power ∧ power ≤ highest) then
      positionalText layout digits value.exponent
    else
      exponentText layout digits value.exponent

end Decimal

/-- The text of a finite number. -/
def Double.layOut (layout : Decimal.Layout) (x : Double) : String :=
  let magnitude := Decimal.magnitudeText layout (x.shortest layout.tie)
  String.ofList (if x.isNegative then '-' :: magnitude else magnitude)

end FilterSql
