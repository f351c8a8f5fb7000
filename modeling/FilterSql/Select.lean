import FilterSql.Expr
import FilterSql.Query
import FilterSql.Request

/-!
Finished SELECT statements and the queries they give: the rows of the window, the first row, and the
number of rows without window or order. All three share the text from `FROM` to `WHERE` and bind the
same arguments, those of the main filter before those of the joins.
-/

namespace FilterSql

structure Join where
  kind : JoinKind
  table : String
  aliasName : String
  condition : Restriction

structure Select where
  table : String
  aliasName : String
  dialect : Dialect
  columns : List ColumnRef
  filter : Restriction
  order : List (ColumnRef × Direction)
  group : List ColumnRef
  joins : List Join
  window : Window

/-- A table goes by its own name unless it has another one. -/
def tableSql (table aliasName : String) : String :=
  if table = aliasName then table else table ++ " " ++ aliasName

def columnsSql (columns : List ColumnRef) : String := ", ".intercalate (columns.map ColumnRef.sql)

namespace Join

/-- A join without a condition joins every pair of rows. -/
def conditionSql (join : Join) : String :=
  if join.condition.isEmpty then "1 = 1" else join.condition.sql

def sql (join : Join) : String :=
  " " ++ join.kind.sql ++ " " ++ tableSql join.table join.aliasName ++ " ON " ++ join.conditionSql

end Join

namespace Select

def whereSql (select : Select) : String :=
  if select.filter.isEmpty then "" else " WHERE " ++ select.filter.sql

def bodySql (select : Select) : String :=
  " FROM " ++ tableSql select.table select.aliasName ++ String.join (select.joins.map Join.sql) ++
    select.whereSql

def groupSql (select : Select) : String :=
  if select.group.isEmpty then "" else " GROUP BY " ++ columnsSql select.group

def orderSql (select : Select) : String :=
  if select.order.isEmpty then
    ""
  else
    " ORDER BY " ++
      ", ".intercalate (select.order.map fun term => term.1.sql ++ " " ++ term.2.sql)

def windowedSql (select : Select) (window : Window) : String :=
  "SELECT " ++ columnsSql select.columns ++ select.bodySql ++ select.groupSql ++ select.orderSql ++
    select.dialect.windowSql window (!select.order.isEmpty)

def sql (select : Select) : String := select.windowedSql select.window

/-- Grouped rows are counted group by group. -/
def countingSql (select : Select) : String :=
  if select.group.isEmpty then
    "SELECT COUNT(*) AS count" ++ select.bodySql
  else
    "SELECT COUNT(*) AS count FROM (SELECT " ++ columnsSql select.group ++ select.bodySql ++
      select.groupSql ++ ") grouped"

def bindings (select : Select) : Bindings :=
  select.joins.foldl (fun result join => result.union join.condition.bindings)
    select.filter.bindings

def tables (select : Select) : List String := select.table :: select.joins.map Join.table

def queryOf (select : Select) (sql : String) : Query := ⟨sql, select.bindings, select.tables⟩

def query (select : Select) : Query := select.queryOf select.sql

def countingQuery (select : Select) : Query := select.queryOf select.countingSql

def firstRowQuery (select : Select) : Query :=
  select.queryOf (select.windowedSql select.window.firstRow)

end Select

end FilterSql
