import FilterSql.Json.Basic

/-!
Wildcards are the texts placed around what a pattern operator compares with.
-/

namespace FilterSql

structure Wildcards where
  before : String
  after : String
  deriving DecidableEq

namespace Wildcards

/-- Patterns match anywhere in a text unless the caller says otherwise. -/
def anywhere : Wildcards := ⟨"%", "%"⟩

def exact : Wildcards := ⟨"", ""⟩

def surround (wildcards : Wildcards) (text : String) : String :=
  wildcards.before ++ text ++ wildcards.after

/-- Reads one side of an options document. A side that is not mentioned has the default. -/
def sideOfJson? (default : String) : Option Json → Option String
  | none => some default
  | some (.string text) => some text
  | some _ => none

/-- Reads an options document, in which other keys are ignored. -/
def ofJson? : Json → Option Wildcards
  | .object fields => do
    let before ← sideOfJson? anywhere.before (fields.lookup "prefix")
    let after ← sideOfJson? anywhere.after (fields.lookup "suffix")
    return ⟨before, after⟩
  | _ => none

end Wildcards

end FilterSql
