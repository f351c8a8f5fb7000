import FilterSql.FilterFault
import FilterSql.Wildcards

/-!
Checking a written filter. A list is a disjunction of its items and an object a conjunction of its
entries; `$and` and `$or` group a list under a connective, every other key names a column. The
first fault in document order is the one reported. Text compared by a pattern operator is placed
between wildcards.
-/

namespace FilterSql

namespace Operand

def unfit (column : String) (operator : Operator) (written : Filter) (expected : Expected) :
    Except FilterFault Operand :=
  .error (.malformed (.unfitOperand operator column expected written.shape))

/-- Reads what stands beside an operator, as the category of the operator demands. -/
def ofFilter (wildcards : Wildcards) (column : String) (operator : Operator) (written : Filter) :
    Except FilterFault Operand :=
  match operator.category with
  | .comparison | .regex =>
    match written with
    | .scalar value => .ok (.scalar value)
    | _ => unfit column operator written .scalar
  | .pattern =>
    match written.scalar?.bind Scalar.patternText? with
    | some text => .ok (.scalar (.text (wildcards.surround text)))
    | none => unfit column operator written .patternText
  | .range =>
    match written with
    | .list items =>
      match items.mapM Filter.scalar? with
      | some [low, high] => .ok (.range low high)
      | some values => .error (.rangeArity column operator values.length)
      | none => unfit column operator written .twoScalars
    | _ => unfit column operator written .twoScalars
  | .membership =>
    match written with
    | .list (item :: items) =>
      match (item :: items).mapM Filter.scalar? with
      | some values => .ok (.list values)
      | none => unfit column operator written .scalarList
    | _ => unfit column operator written .nonemptyList
  | .columnCompare =>
    match written with
    | .scalar (.text other) => .ok (.column other)
    | _ => unfit column operator written .columnName
  | .booleanGroup => .error (.malformed (.groupInsideColumn operator column))

end Operand

def Check.ofEntry (wildcards : Wildcards) (column : String) (entry : String × Filter) :
    Except FilterFault Check :=
  match Operator.ofToken? entry.1 with
  | none => .error (.unknownOperator entry.1)
  | some operator =>
    (Operand.ofFilter wildcards column operator entry.2).map fun operand => ⟨operator, operand⟩

/-- Reads what stands beside a column: a value to equal, or operators that all have to hold. -/
def Test.ofFilter (wildcards : Wildcards) (column : String) : Filter → Except FilterFault Test
  | .scalar value => .ok (.equals value)
  | .list _ => .error (.malformed (.columnWithList column))
  | .object [] => .error (.malformed (.noChecks column))
  | .object (entry :: entries) =>
    ((entry :: entries).mapM (Check.ofEntry wildcards column)).map .every

/-- What a key of a filter object stands for. A leading dollar sign marks an operator. -/
inductive EntryKey where
  | column (name : String)
  | group (connective : Connective)
  deriving DecidableEq

def EntryKey.ofText (key : String) : Except FilterFault EntryKey :=
  if key.toList.head? = some '$' then
    match Operator.ofToken? key with
    | none => .error (.unknownOperator key)
    | some .and => .ok (.group .and)
    | some .or => .ok (.group .or)
    | some operator => .error (.malformed (.operatorAsColumn operator))
  else
    .ok (.column key)

namespace Formula

mutual

/-- Reads a filter that has to restrict something. -/
def ofNonempty (wildcards : Wildcards) : Filter → Except FilterFault Formula
  | .scalar value => .error (.malformed (.bareScalar value))
  | .list [] => .error (.malformed .emptyList)
  | .object [] => .error (.malformed .emptyObject)
  | .list (item :: items) => (ofItems wildcards (item :: items)).map .disjunction
  | .object (entry :: entries) => (ofEntries wildcards (entry :: entries)).map .conjunction
termination_by structural written => written

def ofItems (wildcards : Wildcards) : List Filter → Except FilterFault (List Formula)
  | [] => .ok []
  | item :: items => do
    let formula ← ofNonempty wildcards item
    let formulas ← ofItems wildcards items
    return formula :: formulas
termination_by structural items => items

/-- Reads what stands beside `$and` or `$or`. -/
def ofMembers (wildcards : Wildcards) (connective : Connective) :
    Filter → Except FilterFault (List Formula)
  | .list [] => .error (.malformed (.emptyGroup connective))
  | .list (item :: items) => ofItems wildcards (item :: items)
  | .scalar _ => .error (.malformed (.groupWithoutList connective .scalar))
  | .object _ => .error (.malformed (.groupWithoutList connective .object))
termination_by structural written => written

def ofEntries (wildcards : Wildcards) : List (String × Filter) → Except FilterFault (List Entry)
  | [] => .ok []
  | (key, written) :: entries => do
    let entry ← match ← EntryKey.ofText key with
      | .column name => (Test.ofFilter wildcards name written).map (Entry.column name)
      | .group connective => (ofMembers wildcards connective written).map (Entry.group connective)
    let rest ← ofEntries wildcards entries
    return entry :: rest
termination_by structural entries => entries

end

/-- Reads a whole filter. One without content restricts nothing. -/
def ofFilter (wildcards : Wildcards) (written : Filter) : Except FilterFault Formula :=
  if written.isEmpty then .ok (.conjunction []) else ofNonempty wildcards written

end Formula

end FilterSql
