import FilterSql.Json.Number

/-!
Splitting JSON text into tokens. The scanner reads one character at a time and remembers only what
kind of token it is in; a number or a name ends where the first character outside it comes.
-/

namespace FilterSql

inductive JsonToken where
  | openArray
  | closeArray
  | openObject
  | closeObject
  | comma
  | colon
  | text (value : String)
  | scalar (value : Json)

namespace JsonToken

/-- Where the scanner stands. Characters of an unfinished token are kept in reverse. -/
inductive Mode where
  | between
  | word (chars : List Char)
  | quoted (chars : List Char)
  | escaped (chars : List Char)
  | unicode (chars : List Char) (leading : Option Nat) (digits value : Nat)
  /-- After the leading half of a surrogate pair, whose other half must follow. -/
  | paired (chars : List Char) (leading : Nat) (backslash : Bool)

structure Scan where
  mode : Mode
  tokens : List JsonToken

def isBlank (c : Char) : Bool := c = ' ' || c = '\n' || c = '\t' || c = '\r'

def isWordChar (c : Char) : Bool := c.isAlphanum || c = '-' || c = '+' || c = '.'

def ofWord? (chars : List Char) : Option JsonToken :=
  match String.ofList chars with
  | "null" => some (.scalar .null)
  | "true" => some (.scalar (.bool true))
  | "false" => some (.scalar (.bool false))
  | _ => (JsonNumber.ofChars? chars).map fun value => .scalar (.number value)

def punctuation? : Char → Option JsonToken
  | '[' => some .openArray
  | ']' => some .closeArray
  | '\x7b' => some .openObject
  | '\x7d' => some .closeObject
  | ',' => some .comma
  | ':' => some .colon
  | _ => none

def hexDigit? (c : Char) : Option Nat :=
  if '0' ≤ c ∧ c ≤ '9' then some (c.toNat - '0'.toNat)
  else if 'a' ≤ c ∧ c ≤ 'f' then some (c.toNat - 'a'.toNat + 10)
  else if 'A' ≤ c ∧ c ≤ 'F' then some (c.toNat - 'A'.toNat + 10)
  else none

def unescaped? : Char → Option Char
  | '"' => some '"'
  | '\\' => some '\\'
  | '/' => some '/'
  | 'b' => some '\x08'
  | 'f' => some '\x0c'
  | 'n' => some '\n'
  | 'r' => some '\r'
  | 't' => some '\t'
  | _ => none

/-- The mode after the fourth digit of a code unit. A lone half of a surrogate pair is refused. -/
def finishUnit? (chars : List Char) (leading : Option Nat) (unit : Nat) : Option Mode :=
  let isTrailing : Bool := 0xDC00 ≤ unit && unit < 0xE000
  match leading with
  | some high =>
    if isTrailing then
      some (.quoted (Char.ofNat (0x10000 + (high - 0xD800) * 0x400 + (unit - 0xDC00)) :: chars))
    else
      none
  | none =>
    if isTrailing then none
    else if 0xD800 ≤ unit && unit < 0xDC00 then some (.paired chars unit false)
    else some (.quoted (Char.ofNat unit :: chars))

/-- The step from between two tokens. -/
def start? (tokens : List JsonToken) (c : Char) : Option Scan :=
  if isBlank c then some ⟨.between, tokens⟩
  else if c = '"' then some ⟨.quoted [], tokens⟩
  else if isWordChar c then some ⟨.word [c], tokens⟩
  else (punctuation? c).map fun token => ⟨.between, token :: tokens⟩

def step? (scan : Scan) (c : Char) : Option Scan :=
  match scan.mode with
  | .between => start? scan.tokens c
  | .word chars =>
    if isWordChar c then
      some { scan with mode := .word (c :: chars) }
    else
      (ofWord? chars.reverse).bind fun token => start? (token :: scan.tokens) c
  | .quoted chars =>
    if c = '"' then some ⟨.between, .text (String.ofList chars.reverse) :: scan.tokens⟩
    else if c = '\\' then some { scan with mode := .escaped chars }
    else if c < ' ' then none
    else some { scan with mode := .quoted (c :: chars) }
  | .escaped chars =>
    if c = 'u' then
      some { scan with mode := .unicode chars none 0 0 }
    else
      (unescaped? c).map fun plain => { scan with mode := .quoted (plain :: chars) }
  | .unicode chars leading digits value =>
    (hexDigit? c).bind fun digit =>
      let next := value * 16 + digit
      if digits < 3 then
        some { scan with mode := .unicode chars leading (digits + 1) next }
      else
        (finishUnit? chars leading next).map fun mode => { scan with mode := mode }
  | .paired chars leading backslash =>
    if backslash then
      if c = 'u' then some { scan with mode := .unicode chars (some leading) 0 0 } else none
    else
      if c = '\\' then some { scan with mode := .paired chars leading true } else none

/-- The tokens of a text, unless it holds a character or a word that no token may hold. -/
def scan? (cs : List Char) : Option (List JsonToken) :=
  (cs.foldlM step? ⟨.between, []⟩).bind fun scan =>
    match scan.mode with
    | .between => some scan.tokens.reverse
    | .word chars => (ofWord? chars.reverse).map fun token => (token :: scan.tokens).reverse
    | _ => none

end JsonToken

end FilterSql
