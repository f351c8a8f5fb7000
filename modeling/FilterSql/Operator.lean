/-!
The operators of the filter language: the token that names each one in a filter, the text it becomes
in SQL, and the category that says what operand it takes. Every token has one operator; `$notIs` is
a second token of `$isNot`.
-/

namespace FilterSql

inductive Operator where
  | eq
  | ne
  | gt
  | gte
  | lt
  | lte
  | is
  | not
  | isNot
  | like
  | notLike
  | iLike
  | notILike
  | between
  | notBetween
  | isIn
  | notIn
  | regexp
  | notRegexp
  | iRegexp
  | notIRegexp
  | col
  | notCol
  | gtCol
  | gteCol
  | ltCol
  | lteCol
  | and
  | or
  deriving DecidableEq

namespace Operator

inductive Category where
  | comparison
  | pattern
  | range
  | membership
  | regex
  | columnCompare
  | booleanGroup
  deriving DecidableEq

namespace Category

def all : List Category :=
  [.comparison, .pattern, .range, .membership, .regex, .columnCompare, .booleanGroup]

def name : Category → String
  | .comparison => "comparison"
  | .pattern => "pattern"
  | .range => "range"
  | .membership => "membership"
  | .regex => "regex"
  | .columnCompare => "column_compare"
  | .booleanGroup => "boolean_group"

def ofName? (name : String) : Option Category := all.find? fun category => category.name = name

end Category

def all : List Operator :=
  [.eq, .ne, .gt, .gte, .lt, .lte, .is, .not, .isNot, .like, .notLike, .iLike, .notILike, .between,
    .notBetween, .isIn, .notIn, .regexp, .notRegexp, .iRegexp, .notIRegexp, .col, .notCol, .gtCol,
    .gteCol, .ltCol, .lteCol, .and, .or]

def token : Operator → String
  | .eq => "$eq"
  | .ne => "$ne"
  | .gt => "$gt"
  | .gte => "$gte"
  | .lt => "$lt"
  | .lte => "$lte"
  | .is => "$is"
  | .not => "$not"
  | .isNot => "$isNot"
  | .like => "$like"
  | .notLike => "$notLike"
  | .iLike => "$iLike"
  | .notILike => "$notILike"
  | .between => "$between"
  | .notBetween => "$notBetween"
  | .isIn => "$in"
  | .notIn => "$notIn"
  | .regexp => "$regexp"
  | .notRegexp => "$notRegexp"
  | .iRegexp => "$iRegexp"
  | .notIRegexp => "$notIRegexp"
  | .col => "$col"
  | .notCol => "$notCol"
  | .gtCol => "$gtCol"
  | .gteCol => "$gteCol"
  | .ltCol => "$ltCol"
  | .lteCol => "$lteCol"
  | .and => "$and"
  | .or => "$or"

def ofToken? (token : String) : Option Operator :=
  if token = "$notIs" then some .isNot else all.find? fun operator => operator.token = token

def sql : Operator → String
  | .eq | .col => "="
  | .ne | .notCol => "!="
  | .gt | .gtCol => ">"
  | .gte | .gteCol => ">="
  | .lt | .ltCol => "<"
  | .lte | .lteCol => "<="
  | .is => "IS"
  | .not => "NOT"
  | .isNot => "IS NOT"
  | .like => "LIKE"
  | .notLike => "NOT LIKE"
  | .iLike => "ILIKE"
  | .notILike => "NOT ILIKE"
  | .between => "BETWEEN"
  | .notBetween => "NOT BETWEEN"
  | .isIn => "IN"
  | .notIn => "NOT IN"
  | .regexp => "~"
  | .notRegexp => "!~"
  | .iRegexp => "~*"
  | .notIRegexp => "!~*"
  | .and => "AND"
  | .or => "OR"

def category : Operator → Category
  | .eq | .ne | .gt | .gte | .lt | .lte | .is | .not | .isNot => .comparison
  | .like | .notLike | .iLike | .notILike => .pattern
  | .between | .notBetween => .range
  | .isIn | .notIn => .membership
  | .regexp | .notRegexp | .iRegexp | .notIRegexp => .regex
  | .col | .notCol | .gtCol | .gteCol | .ltCol | .lteCol => .columnCompare
  | .and | .or => .booleanGroup

def isGroup (operator : Operator) : Bool := operator.category = .booleanGroup

/-- The name of an operator in the JSON form of a formula. -/
def name : Operator → String
  | .eq => "Eq"
  | .ne => "Ne"
  | .gt => "Gt"
  | .gte => "Gte"
  | .lt => "Lt"
  | .lte => "Lte"
  | .is => "Is"
  | .not => "Not"
  | .isNot => "IsNot"
  | .like => "Like"
  | .notLike => "NotLike"
  | .iLike => "ILike"
  | .notILike => "NotILike"
  | .between => "Between"
  | .notBetween => "NotBetween"
  | .isIn => "In"
  | .notIn => "NotIn"
  | .regexp => "Regexp"
  | .notRegexp => "NotRegexp"
  | .iRegexp => "IRegexp"
  | .notIRegexp => "NotIRegexp"
  | .col => "Col"
  | .notCol => "NotCol"
  | .gtCol => "GtCol"
  | .gteCol => "GteCol"
  | .ltCol => "LtCol"
  | .lteCol => "LteCol"
  | .and => "And"
  | .or => "Or"

def ofName? (name : String) : Option Operator := all.find? fun operator => operator.name = name

end Operator

/-- How the parts of a group are combined. -/
inductive Connective where
  | and
  | or
  deriving DecidableEq

namespace Connective

def operator : Connective → Operator
  | .and => .and
  | .or => .or

def name : Connective → String
  | .and => "and"
  | .or => "or"

/-- The text between two parts. -/
def separator (connective : Connective) : String := " " ++ connective.operator.sql ++ " "

end Connective

end FilterSql
