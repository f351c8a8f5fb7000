import FilterSql.Text.Unprintable

/-!
Text between double quotes, as error messages show it. Quotes, backslashes and the common controls
are escaped by one letter, other unprintable characters by their code point in braces.
-/

namespace FilterSql.Text

def quotedChar (c : Char) : List Char :=
  match c with
  | '\x00' => ['\\', '0']
  | '\t' => ['\\', 't']
  | '\r' => ['\\', 'r']
  | '\n' => ['\\', 'n']
  | '"' => ['\\', '"']
  | '\\' => ['\\', '\\']
  | other =>
    if isUnprintable other then
      ['\\', 'u', '\x7b'] ++ Nat.toDigits 16 other.toNat ++ ['\x7d']
    else
      [other]

def quoted (text : String) : String :=
  String.ofList ('"' :: text.toList.flatMap quotedChar ++ ['"'])

example : quoted "it's\n\u00ad" = "\"it's\\n\\u\x7bad\x7d\"" := by decide +kernel

example : quoted "\u3164\uff9e" = "\"\\u\x7b3164\x7d\uff9e\"" := by decide +kernel

end FilterSql.Text
