import FilterSql.Identifier
import FilterSql.Text.Quoted

/-!
Column references and the aliases they may start with. A scope knows the alias of the main table and
those of the declared joins; an undotted name belongs to the active join if there is one, otherwise
to the main table. Only text that passes the identifier reader becomes a column, so no other part of
a request is ever written into a query.
-/

namespace FilterSql

inductive ColumnRef where
  | path (owner : String) (segments : List String)
  /-- Every column of one table. -/
  | all (owner : String)
  deriving DecidableEq

/-- Why a name does not denote a column. -/
inductive NameFault where
  | identifier (fault : IdentifierFault)
  | unknownAlias (aliasName text : String)
  deriving DecidableEq

def IdentifierFault.message : IdentifierFault → String
  | .foreignCharacter text => "identifier contains unsupported characters: " ++ text
  | .malformed text => "invalid identifier: " ++ Text.quoted text

def NameFault.message : NameFault → String
  | .identifier fault => fault.message
  | .unknownAlias aliasName text =>
    "join alias '" ++ aliasName ++ "' is not declared (in '" ++ text ++ "')"

namespace ColumnRef

def owner : ColumnRef → String
  | .path owner _ => owner
  | .all owner => owner

def segments : ColumnRef → List String
  | .path _ segments => segments
  | .all _ => ["*"]

def isAll : ColumnRef → Bool
  | .path _ _ => false
  | .all _ => true

def sql (column : ColumnRef) : String :=
  column.owner ++ "." ++ ".".intercalate column.segments

/-- Selecting `column` makes `other` available. -/
def includes (column other : ColumnRef) : Bool :=
  column = other || column = .all other.owner

/-- Reads a name. An undotted one belongs to `owner`; a dotted one starts with `owner` or a known
alias, and the rest of it is the column. -/
def resolve (owner : String) (known : String → Bool) (identifier : String) :
    Except NameFault ColumnRef :=
  match Identifier.path identifier with
  | .error fault => .error (.identifier fault)
  | .ok (aliasName :: segment :: segments) =>
    if aliasName = owner || known aliasName then
      .ok (.path aliasName (segment :: segments))
    else
      .error (.unknownAlias aliasName identifier)
  | .ok segments => .ok (.path owner segments)

end ColumnRef

/-- The aliases of the joins are kept in increasing order, apart from the main one. -/
structure Scope where
  main : String
  joins : List String
  active : Option String
  deriving DecidableEq

namespace Scope

def ofMain (main : String) : Scope := ⟨main, [], none⟩

def knows (scope : Scope) (aliasName : String) : Bool :=
  aliasName = scope.main || scope.joins.contains aliasName

def insertAlias (aliasName : String) : List String → List String
  | [] => [aliasName]
  | other :: others =>
    if aliasName < other then
      aliasName :: other :: others
    else
      other :: insertAlias aliasName others

/-- Declares a join. The flag tells whether the alias was free; a taken one changes nothing. -/
def declare (scope : Scope) (aliasName : String) : Except IdentifierFault (Bool × Scope) :=
  match Identifier.word aliasName with
  | .error fault => .error fault
  | .ok aliasName =>
    if scope.knows aliasName then
      .ok (false, scope)
    else
      .ok (true, { scope with joins := insertAlias aliasName scope.joins })

def activate (scope : Scope) (aliasName : String) : Scope := { scope with active := some aliasName }

/-- The alias of undotted names. -/
def owner (scope : Scope) : String := scope.active.getD scope.main

def column (scope : Scope) (identifier : String) : Except NameFault ColumnRef :=
  ColumnRef.resolve scope.owner scope.knows identifier

/-- Reads an entry of a select list, where `*` and `alias.*` stand for all columns of a table. -/
def selected (scope : Scope) (identifier : String) : Except NameFault ColumnRef :=
  match identifier.toList.reverse with
  | ['*'] => .ok (.all scope.owner)
  | '*' :: '.' :: reversed =>
    match Identifier.word (String.ofList reversed.reverse) with
    | .error fault => .error (.identifier fault)
    | .ok aliasName =>
      if scope.knows aliasName then
        .ok (.all aliasName)
      else
        .error (.unknownAlias aliasName identifier)
  | _ => scope.column identifier

end Scope

end FilterSql
