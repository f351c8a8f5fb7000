import FilterSql.Fault
import FilterSql.Formula.OfFilter
import FilterSql.Formula.Restriction
import FilterSql.Request.OfJson
import FilterSql.Select

/-!
Assembling a request into a statement on one main table. Join aliases are declared before anything
else is read, so every clause may use them. The clauses are then read in a fixed order, whatever the
order in the request: select, filter, order, group, joins; the first fault met is reported.
-/

namespace FilterSql

structure Assembler where
  table : String
  givenAlias : Option String
  wildcards : Wildcards
  dialect : Dialect
  deriving DecidableEq

/-- The restriction that a filter puts on the tables of a scope. -/
def Filter.restriction (wildcards : Wildcards) (scope : Scope) (space : String) (filter : Filter) :
    Except FilterFault Restriction := do
  (← Formula.ofFilter wildcards filter).restriction scope space

/-- The restriction that a filter puts on a single table. -/
def Filter.standalone (aliasName : String) (filter : Filter) : Except Fault Restriction := do
  let aliasName ← (Identifier.word aliasName).mapError (Fault.identifier .table)
  (filter.restriction .anywhere (Scope.ofMain aliasName) "").mapError (Fault.filter .filter)

namespace Assembler

def ofTable (table : String) : Assembler := ⟨table, none, .anywhere, .postgres⟩

/-- A main table without an alias goes by the last segment of its name. -/
def aliasName (assembler : Assembler) : String :=
  assembler.givenAlias.getD (Identifier.lastSegment assembler.table)

def mainScope (assembler : Assembler) : Except Fault Scope :=
  if assembler.table = "" then
    .error (.request .emptyTable)
  else do
    let _ ← (Identifier.path assembler.table).mapError (Fault.identifier .table)
    let aliasName ← (Identifier.word assembler.aliasName).mapError (Fault.identifier .table)
    return Scope.ofMain aliasName

def declareJoins (scope : Scope) : List JoinRequest → Except Fault Scope
  | [] => .ok scope
  | join :: joins => do
    let (isFree, scope) ←
      (scope.declare join.aliasName).mapError (Fault.identifier (.join join.aliasName))
    if isFree then declareJoins scope joins else .error (.request (.duplicateAlias join.aliasName))

def selectColumns (scope : Scope) (names : List String) : Except Fault (List ColumnRef) :=
  if names.isEmpty then
    .error (.request .emptySelect)
  else
    names.mapM fun name => (scope.selected name).mapError (Fault.name .select)

def filterRestriction (assembler : Assembler) (scope : Scope) :
    Option Filter → Except Fault Restriction
  | none => .ok .none
  | some filter =>
    (filter.restriction assembler.wildcards scope "").mapError (Fault.filter .filter)

/-- With joins the same column may come from several tables, so an order column has to be
selected. -/
def orderTerm (scope : Scope) (mustBeSelected : Bool) (columns : List ColumnRef)
    (term : OrderTerm) : Except Fault (ColumnRef × Direction) := do
  let column ← (scope.column term.column).mapError (Fault.name .order)
  if mustBeSelected && !columns.any (·.includes column) then
    .error (.request (.uncoveredOrder column .select))
  else
    return (column, term.direction)

/-- Every order column has to be grouped, also when the group names no column at all. -/
def groupColumns (scope : Scope) (order : List (ColumnRef × Direction)) :
    Option (List String) → Except Fault (List ColumnRef)
  | none => .ok []
  | some names => do
    let group ← names.mapM fun name => (scope.column name).mapError (Fault.name .group)
    match order.find? fun term => !group.contains term.1 with
    | some (column, _) => .error (.request (.uncoveredOrder column .group))
    | none => return group

/-- Parameters of the join at `ordinal` start with this text. -/
def joinSpace (ordinal : Nat) : String := "J_" ++ toString ordinal ++ "_"

def joinClause (assembler : Assembler) (scope : Scope) (ordinal : Nat) (join : JoinRequest) :
    Except Fault Join := do
  let _ ← (Identifier.path join.table).mapError (Fault.identifier (.join join.aliasName))
  let condition ←
    match join.condition with
    | none => .ok .none
    | some filter =>
      (filter.restriction assembler.wildcards (scope.activate join.aliasName)
        (joinSpace ordinal)).mapError (Fault.filter (.join join.aliasName))
  return ⟨join.kind, join.table, join.aliasName, condition⟩

def joinClauses (assembler : Assembler) (scope : Scope) (ordinal : Nat) :
    List JoinRequest → Except Fault (List Join)
  | [] => .ok []
  | join :: joins => do
    let clause ← assembler.joinClause scope ordinal join
    let clauses ← assembler.joinClauses scope (ordinal + 1) joins
    return clause :: clauses

def assemble (assembler : Assembler) (request : Request) : Except Fault Select := do
  let scope ← declareJoins (← assembler.mainScope) request.joins
  let columns ← selectColumns scope request.select
  let filter ← assembler.filterRestriction scope request.filter
  let order ← request.order.mapM (orderTerm scope request.isJoined columns)
  let group ← groupColumns scope order request.group
  let joins ← assembler.joinClauses scope 0 request.joins
  return {
    table := assembler.table
    aliasName := assembler.aliasName
    dialect := assembler.dialect
    columns := columns
    filter := filter
    order := order
    group := group
    joins := joins
    window := request.window
  }

end Assembler

/-- The query of a request on a table under its own name, with the default wildcards and dialect. -/
def Request.query (table : String) (request : Request) : Except Fault Query :=
  ((Assembler.ofTable table).assemble request).map Select.query

/-- The query of a request document. -/
def Json.query (table : String) (document : Json) : Except Fault Query := do
  (← (Request.ofJson document).mapError Fault.request).query table

end FilterSql
