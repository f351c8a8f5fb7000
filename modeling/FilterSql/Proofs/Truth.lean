import FilterSql.Filter
import FilterSql.Proofs.Comparison
import FilterSql.Proofs.Identifiers
import FilterSql.Wildcards

/-! What filters and boolean SQL mean. Both are made of facts that compare a column with something;
given which facts hold, a written filter and a reading of SQL text each have a truth value of their
own. A filter is evaluated as it stands, by a table of what its operators say, and a reading by what
is bound: neither evaluation knows how the one is turned into the other. Between the two stands the
truth of expressions. -/

namespace FilterSql

/-- What a fact compares a column with. -/
inductive Comparand where
  | one (value : Scalar)
  | many (values : List Scalar)
  | between (low high : Scalar)
  | column (other : ColumnRef)
  deriving DecidableEq

structure Fact where
  column : ColumnRef
  operator : String
  comparand : Comparand
  deriving DecidableEq

def Connective.combine : Connective → List Bool → Bool
  | .and, values => values.all id
  | .or, values => values.any id

@[simp] theorem Connective.combine_singleton (connective : Connective) (value : Bool) :
    connective.combine [value] = value := by
  cases connective <;> simp [combine]

/-! ### Filters -/

/-- What is written to the right of an operator. -/
inductive Filter.Side where
  | value
  | pattern
  | pair
  | list
  | column
  deriving DecidableEq

/-- The operators that compare a column: the token of each one, the word of SQL that it says, and
what is written to the right of it. -/
def Filter.comparisons : List (String × String × Side) := [
  ("$eq", "=", .value), ("$ne", "!=", .value),
  ("$gt", ">", .value), ("$gte", ">=", .value),
  ("$lt", "<", .value), ("$lte", "<=", .value),
  ("$is", "IS", .value), ("$not", "NOT", .value),
  ("$isNot", "IS NOT", .value), ("$notIs", "IS NOT", .value),
  ("$in", "IN", .list), ("$notIn", "NOT IN", .list),
  ("$like", "LIKE", .pattern), ("$notLike", "NOT LIKE", .pattern),
  ("$iLike", "ILIKE", .pattern), ("$notILike", "NOT ILIKE", .pattern),
  ("$between", "BETWEEN", .pair), ("$notBetween", "NOT BETWEEN", .pair),
  ("$regexp", "~", .value), ("$notRegexp", "!~", .value),
  ("$iRegexp", "~*", .value), ("$notIRegexp", "!~*", .value),
  ("$col", "=", .column), ("$notCol", "!=", .column),
  ("$gtCol", ">", .column), ("$gteCol", ">=", .column),
  ("$ltCol", "<", .column), ("$lteCol", "<=", .column)]

/-- The text that a scalar has inside a pattern. -/
def Scalar.inPattern? : Scalar → Option String
  | .text value => some value
  | .int value => some (toString value.toInt)
  | .float value => some (floatText patternLayout value)
  | .bool true => some "true"
  | .bool false => some "false"
  | .null | .instant _ | .bytes _ => none

/-- The scalars that are listed, if nothing else is. -/
def Filter.values? : List Filter → Option (List Scalar)
  | [] => some []
  | .scalar value :: items => (values? items).map (value :: ·)
  | .list _ :: _ | .object _ :: _ => none

/-- The column that a name says: an undotted name is one of the active join or else of the main
table, a dotted one starts with its table. -/
def ColumnRef.named (scope : Scope) (name : String) : ColumnRef :=
  match Identifier.pieces name with
  | owner :: segment :: segments => .path owner (segment :: segments)
  | segments => .path (scope.active.getD scope.main) segments

/-- Reads the right side of an operator. Patterns compare with the text between the wildcards. -/
def Comparand.ofFilter? (wildcards : Wildcards) (scope : Scope) :
    Filter.Side → Filter → Option Comparand
  | .value, .scalar value => some (.one value)
  | .pattern, .scalar value =>
    value.inPattern?.map fun text => .one (.text (wildcards.before ++ text ++ wildcards.after))
  | .pair, .list [.scalar low, .scalar high] => some (.between low high)
  | .list, .list items => (Filter.values? items).map .many
  | .column, .scalar (.text other) => some (.column (.named scope other))
  | _, _ => none

namespace Filter

variable (wildcards : Wildcards) (scope : Scope) (holds : Fact → Bool)

def checkTruth (column : ColumnRef) (check : String × Filter) : Option Bool := do
  let (word, side) ← comparisons.lookup check.1
  let comparand ← Comparand.ofFilter? wildcards scope side check.2
  return holds ⟨column, word, comparand⟩

/-- A bare value has to be equal, and several operators all have to hold. -/
def columnTruth (name : String) (written : Filter) : Option Bool :=
  match written with
  | .scalar value => some (holds ⟨.named scope name, "=", .one value⟩)
  | .list _ => none
  | .object checks =>
    (checks.mapM (checkTruth wildcards scope holds (.named scope name))).map Connective.and.combine

mutual

/-- The truth of a filter as it is written: a list holds when one of its items does, an object when
all its entries do. A filter that means nothing has none. -/
def truth : Filter → Option Bool
  | .scalar _ => none
  | .list items => (truths items).map Connective.or.combine
  | .object entries => (entryTruths entries).map Connective.and.combine
termination_by structural written => written

def truths : List Filter → Option (List Bool)
  | [] => some []
  | item :: items => do
    let value ← truth item
    let values ← truths items
    return value :: values
termination_by structural items => items

/-- What stands beside `$and` or `$or`. -/
def groupTruth (connective : Connective) : Filter → Option Bool
  | .scalar _ => none
  | .list items => (truths items).map connective.combine
  | .object _ => none
termination_by structural written => written

def entryTruths : List (String × Filter) → Option (List Bool)
  | [] => some []
  | (key, written) :: entries => do
    let value ←
      (if key = "$and" then groupTruth .and written
      else if key = "$or" then groupTruth .or written
      else columnTruth wildcards scope holds key written)
    let values ← entryTruths entries
    return value :: values
termination_by structural entries => entries

end

def entryTruth (key : String) (written : Filter) : Option Bool :=
  if key = "$and" then groupTruth wildcards scope holds .and written
  else if key = "$or" then groupTruth wildcards scope holds .or written
  else columnTruth wildcards scope holds key written

theorem truths_eq_mapM (items : List Filter) :
    truths wildcards scope holds items = items.mapM (truth wildcards scope holds) := by
  induction items with
  | nil => rfl
  | cons item items ih => rw [truths, ih, List.mapM_cons]

theorem entryTruths_eq_mapM (entries : List (String × Filter)) :
    entryTruths wildcards scope holds entries =
      entries.mapM fun entry => entryTruth wildcards scope holds entry.1 entry.2 := by
  induction entries with
  | nil => rfl
  | cons entry entries ih =>
      rw [entryTruths, ih, List.mapM_cons]
      rfl

end Filter

/-! ### Readings -/

/-- What a term stands for once its parameters are looked up. -/
def Term.comparand? (bindings : Bindings) : Term → Option Comparand
  | .parameter name =>
    match bindings.get? name with
    | some (.one value) => some (.one value)
    | _ => none
  | .spread name =>
    match bindings.get? name with
    | some (.many values) => some (.many values)
    | _ => none
  | .between low high =>
    match bindings.get? low, bindings.get? high with
    | some (.one low), some (.one high) => some (.between low high)
    | _, _ => none
  | .column other => some (.column other)

namespace Sentence

def truth (bindings : Bindings) (holds : Fact → Bool) : Sentence → Option Bool
  | .comparison column operator term => do
    let comparand ← term.comparand? bindings
    return holds ⟨column, operator, comparand⟩
  | .both left right => do
    let value ← left.truth bindings holds
    let value' ← right.truth bindings holds
    return value && value'
  | .either left right => do
    let value ← left.truth bindings holds
    let value' ← right.truth bindings holds
    return value || value'

end Sentence

/-! ### Expressions -/

/-- What a predicate compares its column with, by the arguments that it keeps. -/
def Predicate.comparand : Predicate → Comparand
  | .compare _ _ _ value => .one value
  | .member _ _ _ values => .many values
  | .range _ _ _ low high => .between low high
  | .columns _ _ other => .column other

def Predicate.fact (predicate : Predicate) : Fact :=
  ⟨predicate.column, predicate.operator.sql, predicate.comparand⟩

namespace Expr

mutual

def truth (holds : Fact → Bool) : Expr → Bool
  | .leaf predicate => holds predicate.fact
  | .group connective parts => connective.combine (partsTruths holds parts)
termination_by structural expression => expression

def partsTruths (holds : Fact → Bool) : List Expr → List Bool
  | [] => []
  | part :: parts => truth holds part :: partsTruths holds parts
termination_by structural parts => parts

end

theorem partsTruths_eq_map (holds : Fact → Bool) (parts : List Expr) :
    partsTruths holds parts = parts.map (truth holds) := by
  induction parts with
  | nil => rfl
  | cons part parts ih => rw [partsTruths, ih, List.map_cons]

theorem truth_ofParts (holds : Fact → Bool) (connective : Connective) (parts : List Expr) :
    (ofParts connective parts).truth holds = connective.combine (parts.map (truth holds)) := by
  unfold ofParts
  split
  · simp
  · rw [truth, partsTruths_eq_map]

mutual

/-- Every group has a part, so no text is an empty pair of parentheses. -/
def IsFull : Expr → Prop
  | .leaf _ => True
  | .group _ parts => parts ≠ [] ∧ AreFull parts
termination_by structural expression => expression

def AreFull : List Expr → Prop
  | [] => True
  | part :: parts => IsFull part ∧ AreFull parts
termination_by structural parts => parts

end

theorem areFull_iff {parts : List Expr} : AreFull parts ↔ ∀ part ∈ parts, part.IsFull := by
  induction parts with
  | nil => simp [AreFull]
  | cons part parts ih => simp [AreFull, ih]

theorem isFull_ofParts {connective : Connective} {parts : List Expr} :
    (ofParts connective parts).IsFull ↔ parts ≠ [] ∧ ∀ part ∈ parts, part.IsFull := by
  unfold ofParts
  split
  · simp
  · rw [IsFull, areFull_iff]

end Expr

end FilterSql
