import FilterSql.Decimal.Layout
import FilterSql.Json.Basic

/-!
Writing JSON documents without blanks. Doubles show the shortest digits that read back; what is not
finite becomes null.
-/

namespace FilterSql

namespace Json

/-- Numbers from `0.00001` up to ten quadrillion are written positionally, always with a fraction;
the exponent of a larger one carries its sign. -/
def floatLayout : Decimal.Layout :=
  { tie := .toEven, positional := some (-5, 15), markWhole := true, markPositive := true }

def escapedChar (c : Char) : List Char :=
  match c with
  | '"' => ['\\', '"']
  | '\\' => ['\\', '\\']
  | '\x08' => ['\\', 'b']
  | '\x0c' => ['\\', 'f']
  | '\n' => ['\\', 'n']
  | '\r' => ['\\', 'r']
  | '\t' => ['\\', 't']
  | other =>
    if other < ' ' then
      let code := other.toNat
      ['\\', 'u', '0', '0', Nat.digitChar (code / 16), Nat.digitChar (code % 16)]
    else
      [other]

def quote (text : String) : String :=
  String.ofList ('"' :: text.toList.flatMap escapedChar ++ ['"'])

def numberText : JsonNumber → String
  | .int value => toString value
  | .float value => if value.isFinite then value.layOut floatLayout else "null"

example : numberText (.float ⟨0x3EE4F8B588E368F1⟩) = "0.00001" := by decide +kernel

example : numberText (.float ⟨0x4341C37937E08000⟩) = "1e+16" := by decide +kernel

example : numberText (.float ⟨0x8000000000000000⟩) = "-0.0" := by decide +kernel

mutual

def render : Json → String
  | .null => "null"
  | .bool true => "true"
  | .bool false => "false"
  | .number value => numberText value
  | .string value => quote value
  | .array items => "[" ++ ",".intercalate (renderItems items) ++ "]"
  | .object fields => "\x7b" ++ ",".intercalate (renderFields fields) ++ "\x7d"
termination_by structural document => document

def renderItems : List Json → List String
  | [] => []
  | item :: items => render item :: renderItems items
termination_by structural items => items

def renderFields : List (String × Json) → List String
  | [] => []
  | (key, value) :: fields => (quote key ++ ":" ++ render value) :: renderFields fields
termination_by structural fields => fields

end

end Json

end FilterSql
