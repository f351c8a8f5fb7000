import FilterSql.Assoc
import FilterSql.Scalar

/-!
The arguments of a query by parameter name, in the order in which the names were first bound.
Binding a name again replaces its argument in place.
-/

namespace FilterSql

structure Bindings where
  entries : List (String × Argument)
  deriving DecidableEq

namespace Bindings

def empty : Bindings := ⟨[]⟩

def insert (bindings : Bindings) (name : String) (argument : Argument) : Bindings :=
  ⟨Assoc.insert name argument bindings.entries⟩

/-- Binds also what `other` binds, in its order. -/
def union (bindings other : Bindings) : Bindings :=
  other.entries.foldl (fun result entry => result.insert entry.1 entry.2) bindings

def ofList (pairs : List (String × Argument)) : Bindings :=
  pairs.foldl (fun bindings pair => bindings.insert pair.1 pair.2) empty

def get? (bindings : Bindings) (name : String) : Option Argument := bindings.entries.lookup name

def contains (bindings : Bindings) (name : String) : Bool := (bindings.get? name).isSome

def size (bindings : Bindings) : Nat := bindings.entries.length

def names (bindings : Bindings) : List String := bindings.entries.map (·.1)

def toJson (zone : Instant.Zone) (bindings : Bindings) : Json :=
  .object (bindings.entries.map fun entry => (entry.1, entry.2.toJson zone))

end Bindings

end FilterSql
