import FilterSql.Double

/-!
JSON documents. Objects keep the order of their keys, and numbers are either integers or doubles:
an integer literal between `-2 ^ 63` and `2 ^ 64 - 1` is kept exactly.
-/

namespace FilterSql

inductive JsonNumber where
  | int (value : Int)
  | float (value : Double)
  deriving DecidableEq

inductive Json where
  | null
  | bool (value : Bool)
  | number (value : JsonNumber)
  | string (value : String)
  | array (items : List Json)
  | object (fields : List (String × Json))
  deriving Inhabited

namespace Json

def int (value : Int) : Json := .number (.int value)

/-- The kind of a document, as messages about a misplaced one name it. -/
inductive Kind where
  | null
  | bool
  | number
  | string
  | array
  | object
  deriving DecidableEq

def Kind.name : Kind → String
  | .null => "null"
  | .bool => "boolean"
  | .number => "number"
  | .string => "string"
  | .array => "array"
  | .object => "object"

def kind : Json → Kind
  | .null => .null
  | .bool _ => .bool
  | .number _ => .number
  | .string _ => .string
  | .array _ => .array
  | .object _ => .object

def field? (key : String) : Json → Option Json
  | .object fields => fields.lookup key
  | _ => none

/-- A number that is a whole number between `0` and `2 ^ 64 - 1`. -/
def natural? : Json → Option UInt64
  | .number (.int value) =>
    if 0 ≤ value ∧ value < UInt64.size then some (UInt64.ofNat value.toNat) else none
  | _ => none

end Json

end FilterSql
