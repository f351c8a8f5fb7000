import FilterSql.Filter
import FilterSql.Formula
import FilterSql.Scope

/-!
What can be wrong with a filter, and how each fault reads. A fault names its cause; the wording is
in the functions called `message`.
-/

namespace FilterSql

/-- What an operator takes on its right. -/
inductive Expected where
  | scalar
  | patternText
  | twoScalars
  | scalarList
  | nonemptyList
  | columnName
  deriving DecidableEq

def Expected.text : Expected → String
  | .scalar => "a scalar value"
  | .patternText => "text, a number or a boolean"
  | .twoScalars => "two scalar values"
  | .scalarList => "a list of scalar values"
  | .nonemptyList => "a non-empty list of values"
  | .columnName => "a column name"

/-- Faults of form, in the written filter or in a formula whose operands do not fit. -/
inductive Malformation where
  | emptyObject
  | emptyList
  | bareScalar (value : Scalar)
  | operatorAsColumn (operator : Operator)
  | columnWithList (column : String)
  | emptyGroup (connective : Connective)
  | groupWithoutList (connective : Connective) (found : Filter.Shape)
  | noChecks (column : String)
  | groupInsideColumn (operator : Operator) (column : String)
  | unfitOperand (operator : Operator) (column : String) (expected : Expected)
      (found : Filter.Shape)
  | groupOnColumn (operator : Operator) (column : ColumnRef)
  | operandMismatch (operator : Operator) (column : ColumnRef) (operand : Operand)
  deriving DecidableEq

namespace Malformation

def message : Malformation → String
  | .emptyObject => "empty filter object"
  | .emptyList => "empty filter array"
  | .bareScalar value => "expected an object or array, got scalar " ++ value.diagnostic
  | .operatorAsColumn operator =>
    "operator " ++ operator.token ++ " used where a column was expected"
  | .columnWithList column =>
    "column '" ++ column ++ "' paired with an array; use $in for value lists"
  | .emptyGroup connective => connective.operator.token ++ " requires at least one child"
  | .groupWithoutList connective found =>
    connective.operator.token ++ " expects an array of filters, got " ++ found.name
  | .noChecks column => "empty operator object on column '" ++ column ++ "'"
  | .groupInsideColumn operator column =>
    operator.token ++ " is not allowed inside the operator object of '" ++ column ++ "'"
  | .unfitOperand operator column expected found =>
    operator.token ++ " on '" ++ column ++ "' expects " ++ expected.text ++ ", got " ++ found.name
  | .groupOnColumn operator column =>
    operator.token ++ " cannot be applied to column '" ++ column.sql ++ "'"
  | .operandMismatch operator column operand =>
    operator.token ++ " on '" ++ column.sql ++ "' cannot take operand " ++ operand.diagnostic

end Malformation

inductive FilterFault where
  | malformed (cause : Malformation)
  | unknownOperator (token : String)
  | name (fault : NameFault)
  | rangeArity (column : String) (operator : Operator) (found : Nat)
  deriving DecidableEq

namespace FilterFault

def message : FilterFault → String
  | .malformed cause => "malformed filter: " ++ cause.message
  | .unknownOperator token => "unknown operator: " ++ token
  | .name fault => fault.message
  | .rangeArity column operator found =>
    operator.token ++ " on '" ++ column ++ "' expects exactly 2 values, got " ++ toString found

end FilterFault

end FilterSql
