import FilterSql.FilterFault
import FilterSql.Json.Printer
import FilterSql.Query
import FilterSql.Request

/-!
What can go wrong between a request and a finished statement. Faults of filters and names are
reported with the clause they were found in.
-/

namespace FilterSql

/-- Faults of form in a request document. -/
inductive DocumentFault where
  | notObject (found : Json.Kind)
  | notArray (key : Request.Key) (found : Json.Kind)
  | entryNotString (key : Request.Key) (found : Json.Kind)
  | orderNotObject (found : Json.Kind)
  | joinNotObject (found : Json.Kind)
  | joinWithoutTable
  | joinWithoutType
  | aliasNotString (found : Json.Kind)
  deriving DecidableEq

namespace DocumentFault

def message : DocumentFault → String
  | .notObject found => "expected an object, got " ++ found.name
  | .notArray key found => key.text ++ " must be an array, got " ++ found.name
  | .entryNotString key found => key.text ++ " entries must be strings, got " ++ found.name
  | .orderNotObject found => "order must be an object, got " ++ found.name
  | .joinNotObject found => "join must be an object, got " ++ found.name
  | .joinWithoutTable => "join requires a string 'table'"
  | .joinWithoutType => "join requires a string 'type'"
  | .aliasNotString found => "join alias must be a string, got " ++ found.name

end DocumentFault

inductive RequestFault where
  | emptyTable
  | emptySelect
  /-- An order column that is missing where the clause `key` has to name it. -/
  | uncoveredOrder (column : ColumnRef) (key : Request.Key)
  | unknownJoinType (text : String)
  | duplicateAlias (aliasName : String)
  | bound (key : Request.Key) (value : Json)
  | direction (column : String) (value : Json)
  | document (fault : DocumentFault)
  | slot (fault : SlotFault)

namespace RequestFault

def message : RequestFault → String
  | .emptyTable => "empty table name"
  | .emptySelect => "select is required and must name at least one column"
  | .uncoveredOrder column key =>
    "order column '" ++ column.sql ++ "' must also appear in " ++ key.text
  | .unknownJoinType text => "unknown join type: " ++ text
  | .duplicateAlias aliasName => "join alias declared more than once: " ++ aliasName
  | .bound key value =>
    key.text ++ " must be a non-negative integer, got " ++ value.render
  | .direction column value =>
    "invalid order direction for '" ++ column ++ "': " ++ value.render
  | .document fault => "invalid query descriptor: " ++ fault.message
  | .slot fault => "invalid parameter: " ++ fault.message

end RequestFault

inductive Clause where
  | table
  | select
  | filter
  | order
  | group
  | join (aliasName : String)
  deriving DecidableEq

def Clause.text : Clause → String
  | .table => "from"
  | .select => "select"
  | .filter => "where"
  | .order => "order"
  | .group => "group"
  | .join aliasName => "join '" ++ aliasName ++ "'"

inductive Fault where
  | filter (clause : Clause) (fault : FilterFault)
  | request (fault : RequestFault)

namespace Fault

def name (clause : Clause) (fault : NameFault) : Fault := .filter clause (.name fault)

def identifier (clause : Clause) (fault : IdentifierFault) : Fault :=
  name clause (.identifier fault)

/-- The fault itself, without the clause it was found in. -/
def cause : Fault → String
  | .filter _ fault => fault.message
  | .request fault => fault.message

def message : Fault → String
  | .filter clause fault => "filter error in " ++ clause.text ++ ": " ++ fault.message
  | .request fault => "SQL error: " ++ fault.message

end Fault

end FilterSql
