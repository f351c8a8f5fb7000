import FilterSql.Bindings
import FilterSql.Dialect
import FilterSql.Identifier

/-!
Queries with named parameters, and their form with positional placeholders. In the named form a
colon starts a slot: `:name` for one value, `:...name` for a list. The positional form replaces
every slot by placeholders numbered from left to right and collects the values in the same order; a
name that is used twice contributes twice.
-/

namespace FilterSql

structure Query where
  sql : String
  bindings : Bindings
  tables : List String
  deriving DecidableEq

structure PositionalQuery where
  sql : String
  values : List Scalar
  deriving DecidableEq

inductive SlotFault where
  | unreadable (rest : String)
  | wrongShape (name : String)
  | unknown (name : String)
  deriving DecidableEq

namespace SlotFault

def message : SlotFault → String
  | .unreadable rest => "unparseable placeholder at '" ++ rest ++ "'"
  | .wrongShape name => "parameter '" ++ name ++ "' is bound with the wrong shape"
  | .unknown name => "unknown parameter '" ++ name ++ "'"

end SlotFault

inductive Segment where
  | char (c : Char)
  | slot (name : String) (spread : Bool)
  deriving DecidableEq

namespace Segment

/-- Reads what follows a colon. -/
def readSlot? (cs : List Char) : Option (Segment × List Char) :=
  match cs with
  | '.' :: '.' :: '.' :: tail =>
    (Identifier.readWord? tail).map fun (word, rest) => (.slot (String.ofList word) true, rest)
  | _ => (Identifier.readWord? cs).map fun (word, rest) => (.slot (String.ofList word) false, rest)

theorem readSlot?_length {cs rest : List Char} {segment : Segment}
    (h : readSlot? cs = some (segment, rest)) : rest.length ≤ cs.length := by
  unfold readSlot? at h
  split at h
  · obtain ⟨⟨word, left⟩, hword, hpair⟩ := Option.map_eq_some_iff.1 h
    simp only [Prod.mk.injEq] at hpair
    have := Identifier.readWord?_length hword
    rw [← hpair.2]
    simp only [List.length_cons]
    omega
  · obtain ⟨⟨word, left⟩, hword, hpair⟩ := Option.map_eq_some_iff.1 h
    simp only [Prod.mk.injEq] at hpair
    rw [← hpair.2]
    exact Identifier.readWord?_length hword

/-- Splits a text at its slots. The first colon without a readable slot is reported together with
everything after it. -/
def ofChars (cs : List Char) : Except SlotFault (List Segment) :=
  match cs with
  | [] => .ok []
  | ':' :: tail =>
    match h : readSlot? tail with
    | none => .error (.unreadable (String.ofList (':' :: tail)))
    | some (segment, rest) =>
      have : rest.length ≤ tail.length := readSlot?_length h
      (ofChars rest).map (segment :: ·)
  | c :: tail => (ofChars tail).map (.char c :: ·)
termination_by cs.length

/-- The positional text and the values of segments whose first placeholder has number `position`. -/
def fill (dialect : Dialect) (bindings : Bindings) (position : Nat) :
    List Segment → Except SlotFault (List Char × List Scalar)
  | [] => .ok ([], [])
  | .char c :: segments => do
    let (text, values) ← fill dialect bindings position segments
    return (c :: text, values)
  | .slot name spread :: segments =>
    match bindings.get? name, spread with
    | some (.one value), false => do
      let (text, values) ← fill dialect bindings (position + 1) segments
      return ((dialect.placeholder position).toList ++ text, value :: values)
    | some (.many items), true => do
      let (text, values) ← fill dialect bindings (position + items.length) segments
      let placeholders := (List.range' position items.length).map dialect.placeholder
      return ((", ".intercalate placeholders).toList ++ text, items ++ values)
    | some _, _ => .error (.wrongShape name)
    | none, _ => .error (.unknown name)

end Segment

namespace PositionalQuery

def toJson (zone : Instant.Zone) (query : PositionalQuery) : Json :=
  .object
    [("sql", .string query.sql), ("values", .array (query.values.map (Scalar.toJson zone)))]

end PositionalQuery

namespace Query

def positional (query : Query) (dialect : Dialect) : Except SlotFault PositionalQuery := do
  let segments ← Segment.ofChars query.sql.toList
  let (text, values) ← Segment.fill dialect query.bindings 1 segments
  return ⟨String.ofList text, values⟩

def toJson (zone : Instant.Zone) (query : Query) : Json :=
  .object
    [("sql", .string query.sql), ("params", query.bindings.toJson zone),
      ("tables", .array (query.tables.map .string))]

end Query

end FilterSql
