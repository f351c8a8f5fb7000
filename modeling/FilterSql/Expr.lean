import FilterSql.Operator
import FilterSql.Scope
import FilterSql.Bindings

/-!
Boolean SQL expressions over named parameters. Each predicate keeps the arguments of its parameters,
so the text of an expression and what has to be bound for it are two views of one value.
-/

namespace FilterSql

inductive Predicate where
  | compare (column : ColumnRef) (operator : Operator) (parameter : String) (value : Scalar)
  | member (column : ColumnRef) (operator : Operator) (parameter : String) (values : List Scalar)
  | range (column : ColumnRef) (operator : Operator) (parameter : String) (low high : Scalar)
  | columns (column : ColumnRef) (operator : Operator) (other : ColumnRef)
  deriving DecidableEq

namespace Predicate

def lowParameter (parameter : String) : String := parameter ++ "_start"

def highParameter (parameter : String) : String := parameter ++ "_end"

/-- A parameter that holds a list is marked by three dots. -/
def sql : Predicate → String
  | .compare column operator parameter _ =>
    column.sql ++ " " ++ operator.sql ++ " :" ++ parameter
  | .member column operator parameter _ =>
    column.sql ++ " " ++ operator.sql ++ " (:..." ++ parameter ++ ")"
  | .range column operator parameter _ _ =>
    column.sql ++ " " ++ operator.sql ++ " :" ++ lowParameter parameter ++ " AND :" ++
      highParameter parameter
  | .columns column operator other => column.sql ++ " " ++ operator.sql ++ " " ++ other.sql

def arguments : Predicate → List (String × Argument)
  | .compare _ _ parameter value => [(parameter, .one value)]
  | .member _ _ parameter values => [(parameter, .many values)]
  | .range _ _ parameter low high =>
    [(lowParameter parameter, .one low), (highParameter parameter, .one high)]
  | .columns _ _ _ => []

end Predicate

inductive Expr where
  | leaf (predicate : Predicate)
  | group (connective : Connective) (parts : List Expr)

namespace Expr

/-- A single part stands for itself; everything else is put into parentheses. -/
def ofParts (connective : Connective) : List Expr → Expr
  | [part] => part
  | parts => .group connective parts

mutual

def sql : Expr → String
  | .leaf predicate => predicate.sql
  | .group connective parts => "(" ++ connective.separator.intercalate (partsSql parts) ++ ")"
termination_by structural expression => expression

def partsSql : List Expr → List String
  | [] => []
  | part :: parts => sql part :: partsSql parts
termination_by structural parts => parts

end

mutual

/-- The parameters from left to right, with their arguments. -/
def arguments : Expr → List (String × Argument)
  | .leaf predicate => predicate.arguments
  | .group _ parts => partsArguments parts
termination_by structural expression => expression

def partsArguments : List Expr → List (String × Argument)
  | [] => []
  | part :: parts => arguments part ++ partsArguments parts
termination_by structural parts => parts

end

end Expr

/-- A boolean expression whose outermost parts stand without parentheses. Without parts it restricts
nothing and has no text. -/
structure Restriction where
  connective : Connective
  parts : List Expr

namespace Restriction

def none : Restriction := ⟨.and, []⟩

def isEmpty (restriction : Restriction) : Bool := restriction.parts.isEmpty

def sql (restriction : Restriction) : String :=
  restriction.connective.separator.intercalate (Expr.partsSql restriction.parts)

def bindings (restriction : Restriction) : Bindings :=
  Bindings.ofList (Expr.partsArguments restriction.parts)

end Restriction

end FilterSql
