/-!
Identifiers and dotted paths. A word is a non-empty run of ASCII letters, digits and underscores; a
path is words separated by single dots. The readers take the longest such start of a text and return
what is left of it, so a dot that no word follows is left over. A text is an identifier or a path
when its reader leaves nothing.
-/

namespace FilterSql

def isWordChar (c : Char) : Bool := c.isAlphanum || c = '_'

def isPathChar (c : Char) : Bool := isWordChar c || c = '.'

/-- Why a text is no identifier or no path. A character that no identifier holds is reported before
anything about its form. -/
inductive IdentifierFault where
  | foreignCharacter (text : String)
  | malformed (text : String)
  deriving DecidableEq

namespace Identifier

def readWord? (cs : List Char) : Option (List Char × List Char) :=
  match cs.takeWhile isWordChar with
  | [] => none
  | word => some (word, cs.dropWhile isWordChar)

theorem readWord?_length {cs word rest : List Char} (h : readWord? cs = some (word, rest)) :
    rest.length ≤ cs.length := by
  unfold readWord? at h
  split at h
  · simp at h
  · simp only [Option.some.injEq, Prod.mk.injEq] at h
    rw [← h.2]
    exact (List.dropWhile_sublist isWordChar).length_le

/-- Words that each follow a dot. -/
def readSegments (cs : List Char) : List (List Char) × List Char :=
  match cs with
  | '.' :: tail =>
    match h : readWord? tail with
    | some (word, rest) =>
      have : rest.length ≤ tail.length := readWord?_length h
      let (words, left) := readSegments rest
      (word :: words, left)
    | none => ([], cs)
  | _ => ([], cs)
termination_by cs.length

def readPath? (cs : List Char) : Option (List (List Char) × List Char) :=
  (readWord? cs).map fun (word, rest) =>
    let (words, left) := readSegments rest
    (word :: words, left)

/-- The segments of a dotted path. -/
def path (text : String) : Except IdentifierFault (List String) :=
  if text.toList.all isPathChar then
    match readPath? text.toList with
    | some (words, []) => .ok (words.map String.ofList)
    | _ => .error (.malformed text)
  else
    .error (.foreignCharacter text)

/-- A single word. -/
def word (text : String) : Except IdentifierFault String :=
  if text.toList.all isPathChar then
    match readWord? text.toList with
    | some (word, []) => .ok (String.ofList word)
    | _ => .error (.malformed text)
  else
    .error (.foreignCharacter text)

/-- What follows the last dot of a text. -/
def lastSegment (text : String) : String :=
  String.ofList (text.toList.reverse.takeWhile (· ≠ '.')).reverse

end Identifier

end FilterSql
