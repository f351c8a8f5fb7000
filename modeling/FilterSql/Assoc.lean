/-!
Association lists in order of first insertion. Inserting under a key that is already present
replaces its value in place, so keys stay distinct and keep the position they first had.
-/

namespace FilterSql.Assoc

variable {κ α : Type} [DecidableEq κ]

def insert (key : κ) (value : α) : List (κ × α) → List (κ × α)
  | [] => [(key, value)]
  | (other, old) :: entries =>
    if other = key then (key, value) :: entries else (other, old) :: insert key value entries

def ofList (pairs : List (κ × α)) : List (κ × α) :=
  pairs.foldl (fun entries pair => insert pair.1 pair.2 entries) []

end FilterSql.Assoc
