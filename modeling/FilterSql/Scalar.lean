import FilterSql.Decimal.Layout
import FilterSql.Instant
import FilterSql.Json.Basic
import FilterSql.Text.Quoted

/-!
Scalar values, and the arguments bound to the parameters of a query: one scalar, or a list that is
spread over several placeholders.
-/

namespace FilterSql

inductive Scalar where
  | null
  | bool (value : Bool)
  | int (value : Int64)
  | float (value : Double)
  | text (value : String)
  | instant (value : Instant)
  | bytes (value : List UInt8)
  deriving DecidableEq

namespace Scalar

def isNull : Scalar → Bool
  | .null => true
  | _ => false

def text? : Scalar → Option String
  | .text value => some value
  | _ => none

def boolText (value : Bool) : String := if value then "true" else "false"

/-- The text of a double with names for what is not finite. -/
def floatText (layout : Decimal.Layout) (value : Double) : String :=
  if value.isFinite then value.layOut layout
  else if !value.isInfinite then "NaN"
  else if value.isNegative then "-inf"
  else "inf"

/-- Patterns show every number positionally and a whole number without a fraction. -/
def patternLayout : Decimal.Layout :=
  { tie := .upward, positional := none, markWhole := false, markPositive := false }

/-- Diagnostics show numbers from `0.0001` up to ten quadrillion positionally, always with a
fraction. -/
def diagnosticLayout : Decimal.Layout :=
  { tie := .upward, positional := some (-4, 15), markWhole := true, markPositive := false }

example : floatText patternLayout ⟨0x4341C37937E08000⟩ = "10000000000000000" := by
  decide +kernel

example : floatText diagnosticLayout ⟨0x4341C37937E08000⟩ = "1e16" := by decide +kernel

example : floatText diagnosticLayout ⟨0x3F1A36E2EB1C432D⟩ = "0.0001" := by decide +kernel

/-- The text a scalar stands for inside a pattern. Nulls, instants and bytes have none. -/
def patternText? : Scalar → Option String
  | .text value => some value
  | .int value => some (toString value.toInt)
  | .float value => some (floatText patternLayout value)
  | .bool value => some (boolText value)
  | .null => none
  | .instant _ => none
  | .bytes _ => none

def diagnostic : Scalar → String
  | .null => "Null"
  | .bool value => "Bool(" ++ boolText value ++ ")"
  | .int value => "Integer(" ++ toString value.toInt ++ ")"
  | .float value => "Float(" ++ floatText diagnosticLayout value ++ ")"
  | .text value => "Text(" ++ Text.quoted value ++ ")"
  | .instant value => "Date(" ++ value.text .letter ++ ")"
  | .bytes value =>
    "Binary([" ++ ", ".intercalate (value.map fun byte => toString byte.toNat) ++ "])"

def toJson (zone : Instant.Zone) : Scalar → Json
  | .null => .null
  | .bool value => .bool value
  | .int value => .int value.toInt
  | .float value => if value.isFinite then .number (.float value) else .null
  | .text value => .string value
  | .instant value => .string (value.text zone)
  | .bytes value => .array (value.map fun byte => .int byte.toNat)

def listDiagnostic (values : List Scalar) : String :=
  "[" ++ ", ".intercalate (values.map diagnostic) ++ "]"

end Scalar

inductive Argument where
  | one (value : Scalar)
  | many (values : List Scalar)
  deriving DecidableEq

namespace Argument

def toJson (zone : Instant.Zone) : Argument → Json
  | .one value => value.toJson zone
  | .many values => .array (values.map (Scalar.toJson zone))

end Argument

end FilterSql
