import FilterSql.Assoc
import FilterSql.Scalar

/-!
Filters as callers write them: scalars, lists and objects with ordered keys. A filter has the shape
of a JSON document, with scalars that JSON lacks.
-/

namespace FilterSql

inductive Filter where
  | scalar (value : Scalar)
  | list (items : List Filter)
  | object (entries : List (String × Filter))

namespace Filter

inductive Shape where
  | scalar
  | list
  | object
  deriving DecidableEq

def Shape.name : Shape → String
  | .scalar => "scalar"
  | .list => "array"
  | .object => "object"

def shape : Filter → Shape
  | .scalar _ => .scalar
  | .list _ => .list
  | .object _ => .object

/-- A list or object without content, which restricts nothing. A scalar is never empty. -/
def isEmpty : Filter → Bool
  | .scalar _ => false
  | .list items => items.isEmpty
  | .object entries => entries.isEmpty

def scalar? : Filter → Option Scalar
  | .scalar value => some value
  | _ => none

/-- An integer that fits 64 bits with its sign stays one; every other number becomes a double. -/
def ofNumber : JsonNumber → Scalar
  | .int value =>
    if Int64.minValue.toInt ≤ value ∧ value ≤ Int64.maxValue.toInt then
      .int (Int64.ofInt value)
    else
      .float (Double.ofInt value)
  | .float value => .float value

mutual

def ofJson : Json → Filter
  | .null => .scalar .null
  | .bool value => .scalar (.bool value)
  | .number value => .scalar (ofNumber value)
  | .string value => .scalar (.text value)
  | .array items => .list (ofJsonItems items)
  | .object fields => .object (ofJsonFields fields)
termination_by structural document => document

def ofJsonItems : List Json → List Filter
  | [] => []
  | item :: items => ofJson item :: ofJsonItems items
termination_by structural items => items

def ofJsonFields : List (String × Json) → List (String × Filter)
  | [] => []
  | (key, value) :: fields => (key, ofJson value) :: ofJsonFields fields
termination_by structural fields => fields

end

end Filter

end FilterSql
