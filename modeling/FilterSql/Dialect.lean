/-!
The dialects of SQL that queries are written for. They differ in how placeholders are numbered and
in how a window of the result rows is asked for.
-/

namespace FilterSql

/-- The rows left after dropping the first `skip` and keeping at most `take`. -/
structure Window where
  take : Option UInt64
  skip : Option UInt64
  deriving DecidableEq

namespace Window

def everything : Window := ⟨none, none⟩

def firstRow (window : Window) : Window := { window with take := some 1 }

end Window

inductive Dialect where
  | postgres
  | mySql
  | msSql
  | oracle
  deriving DecidableEq

namespace Dialect

def all : List Dialect := [.postgres, .mySql, .msSql, .oracle]

def name : Dialect → String
  | .postgres => "postgres"
  | .mySql => "my_sql"
  | .msSql => "ms_sql"
  | .oracle => "oracle"

def ofName? (name : String) : Option Dialect := all.find? fun dialect => dialect.name = name

/-- The placeholder of a position counted from one. -/
def placeholder (dialect : Dialect) (position : Nat) : String :=
  match dialect with
  | .postgres => "$" ++ toString position
  | .mySql => "?"
  | .msSql => "@P" ++ toString position
  | .oracle => ":" ++ toString position

def limit (count : UInt64) : String := " LIMIT " ++ toString count.toNat

def offset (count : UInt64) : String := " OFFSET " ++ toString count.toNat

def offsetRows (count : UInt64) : String := offset count ++ " ROWS"

def fetchRows (count : UInt64) : String :=
  " FETCH NEXT " ++ toString count.toNat ++ " ROWS ONLY"

def optional (text : UInt64 → String) (count : Option UInt64) : String := (count.map text).getD ""

/-- The limit that stands for no limit where an offset needs one. -/
def noLimit : UInt64 := UInt64.ofNat (UInt64.size - 1)

/-- The text that asks for a window. Where an offset may only follow an order, a statement without
one gets an order that leaves the rows as they are. -/
def windowSql (dialect : Dialect) (window : Window) (ordered : Bool) : String :=
  match dialect with
  | .postgres => optional limit window.take ++ optional offset window.skip
  | .mySql =>
    match window.skip with
    | none => optional limit window.take
    | some skip => limit (window.take.getD noLimit) ++ offset skip
  | .msSql =>
    if window = .everything then
      ""
    else
      (if ordered then "" else " ORDER BY (SELECT NULL)") ++ offsetRows (window.skip.getD 0) ++
        optional fetchRows window.take
  | .oracle => optional offsetRows window.skip ++ optional fetchRows window.take

end Dialect

end FilterSql
