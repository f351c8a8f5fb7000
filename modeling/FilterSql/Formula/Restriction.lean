import FilterSql.Expr
import FilterSql.FilterFault

/-!
Turning a formula into a boolean SQL expression. Parameters are named by position: the parts of the
root are numbered, and below it a part among several appends its number to the name of its parent
while an only part keeps that name. The first faulty part from the left is the one reported.
-/

namespace FilterSql

/-- The name of the part at `index` among `siblings` parts below `parent`. -/
def partName (parent : String) (siblings index : Nat) : String :=
  if siblings = 1 then parent else parent ++ "_" ++ toString index

def rootName (space : String) (index : Nat) : String := space ++ toString index

def Predicate.ofCheck (scope : Scope) (column : ColumnRef) (parameter : String) (check : Check) :
    Except FilterFault Predicate :=
  match check.operator.category, check.operand with
  | .comparison, .scalar value
  | .pattern, .scalar value
  | .regex, .scalar value => .ok (.compare column check.operator parameter value)
  | .membership, .list values => .ok (.member column check.operator parameter values)
  | .range, .range low high => .ok (.range column check.operator parameter low high)
  | .columnCompare, .column name =>
    match scope.column name with
    | .ok other => .ok (.columns column check.operator other)
    | .error fault => .error (.name fault)
  | .booleanGroup, _ => .error (.malformed (.groupOnColumn check.operator column))
  | _, operand => .error (.malformed (.operandMismatch check.operator column operand))

/-- The predicates of several checks on one column. -/
def Expr.ofChecks (scope : Scope) (column : ColumnRef) (names : Nat → String) (index : Nat) :
    List Check → Except FilterFault (List Expr)
  | [] => .ok []
  | check :: checks => do
    let predicate ← Predicate.ofCheck scope column (names index) check
    let rest ← ofChecks scope column names (index + 1) checks
    return .leaf predicate :: rest

def Expr.ofTest (scope : Scope) (column : ColumnRef) (name : String) :
    Test → Except FilterFault Expr
  | .equals value =>
    (Predicate.ofCheck scope column name ⟨.eq, .scalar value⟩).map Expr.leaf
  | .every checks =>
    (Expr.ofChecks scope column (partName name checks.length) 0 checks).map (Expr.ofParts .and)

namespace Formula

mutual

def toExpr (scope : Scope) (name : String) : Formula → Except FilterFault Expr
  | .conjunction entries =>
    (entryExprs scope (partName name entries.length) 0 entries).map (Expr.ofParts .and)
  | .disjunction branches =>
    (branchExprs scope (partName name branches.length) 0 branches).map (Expr.ofParts .or)
termination_by structural formula => formula

def branchExprs (scope : Scope) (names : Nat → String) (index : Nat) :
    List Formula → Except FilterFault (List Expr)
  | [] => .ok []
  | branch :: branches => do
    let part ← toExpr scope (names index) branch
    let parts ← branchExprs scope names (index + 1) branches
    return part :: parts
termination_by structural branches => branches

def entryExpr (scope : Scope) (name : String) : Entry → Except FilterFault Expr
  | .column identifier test =>
    match scope.column identifier with
    | .ok column => Expr.ofTest scope column name test
    | .error fault => .error (.name fault)
  | .group connective members =>
    (branchExprs scope (partName name members.length) 0 members).map (Expr.ofParts connective)
termination_by structural entry => entry

def entryExprs (scope : Scope) (names : Nat → String) (index : Nat) :
    List Entry → Except FilterFault (List Expr)
  | [] => .ok []
  | entry :: entries => do
    let part ← entryExpr scope (names index) entry
    let parts ← entryExprs scope names (index + 1) entries
    return part :: parts
termination_by structural entries => entries

end

/-- The restriction a formula stands for. All its parameters start with `space`. -/
def restriction (scope : Scope) (space : String) : Formula → Except FilterFault Restriction
  | .conjunction entries => (entryExprs scope (rootName space) 0 entries).map (⟨.and, ·⟩)
  | .disjunction branches => (branchExprs scope (rootName space) 0 branches).map (⟨.or, ·⟩)

end Formula

end FilterSql
