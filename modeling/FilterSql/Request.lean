import FilterSql.Dialect
import FilterSql.Filter
import FilterSql.Identifier

/-!
Requests for a query: what to select, how to filter, order, group and join, and which window of the
result to return. Names and filters are kept as written; they are checked when a statement is
assembled.
-/

namespace FilterSql

inductive Direction where
  | ascending
  | descending
  deriving DecidableEq

namespace Direction

def all : List Direction := [.ascending, .descending]

def sql : Direction → String
  | .ascending => "ASC"
  | .descending => "DESC"

def name : Direction → String
  | .ascending => "asc"
  | .descending => "desc"

def ofName? (name : String) : Option Direction := all.find? fun direction => direction.name = name

end Direction

inductive JoinKind where
  | left
  | inner
  deriving DecidableEq

namespace JoinKind

def all : List JoinKind := [.left, .inner]

def sql : JoinKind → String
  | .left => "LEFT JOIN"
  | .inner => "INNER JOIN"

def name : JoinKind → String
  | .left => "left"
  | .inner => "inner"

def ofName? (name : String) : Option JoinKind := all.find? fun kind => kind.name = name

/-- Letters of either case are accepted. Only ASCII letters have a small form that occurs in these
names. -/
def ofText? (text : String) : Option JoinKind :=
  ofName? (String.ofList (text.toList.map Char.toLower))

end JoinKind

structure OrderTerm where
  column : String
  direction : Direction
  deriving DecidableEq

structure JoinRequest where
  kind : JoinKind
  table : String
  givenAlias : Option String
  condition : Option Filter

/-- A join without an alias goes by the last segment of its table. -/
def JoinRequest.aliasName (join : JoinRequest) : String :=
  join.givenAlias.getD (Identifier.lastSegment join.table)

structure Request where
  select : List String
  filter : Option Filter
  order : List OrderTerm
  group : Option (List String)
  joins : List JoinRequest
  window : Window

namespace Request

def empty : Request := ⟨[], none, [], none, [], .everything⟩

def isJoined (request : Request) : Bool := !request.joins.isEmpty

/-- The request restricts its rows. -/
def isFiltered (request : Request) : Bool := request.filter.any fun filter => !filter.isEmpty

/-- The keys of a request document. -/
inductive Key where
  | select
  | filter
  | order
  | group
  | joins
  | take
  | skip
  deriving DecidableEq

namespace Key

def all : List Key := [.select, .filter, .order, .group, .joins, .take, .skip]

def text : Key → String
  | .select => "select"
  | .filter => "where"
  | .order => "order"
  | .group => "group"
  | .joins => "joins"
  | .take => "take"
  | .skip => "skip"

def ofText? (text : String) : Option Key := all.find? fun key => key.text = text

end Key

end Request

end FilterSql
