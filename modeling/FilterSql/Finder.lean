import FilterSql.Assembler

/-!
Running a statement against a backend. A finder decides which queries are sent and in which order;
the backend answers each of them or fails, and the first failure ends the search.
-/

namespace FilterSql

/-- What a database offers, in a monad of its choice: the rows of a query, the number a counting
query returns, and the number of all rows of an entity. -/
structure Backend (m : Type → Type) (ρ ε : Type) where
  rows : Query → m (Except ε (List ρ))
  number : Query → m (Except ε UInt64)
  total : String → m (Except ε UInt64)

inductive Call where
  | rows (query : Query)
  | number (query : Query)
  | total (entity : String)
  deriving DecidableEq

/-- A backend that also keeps the calls it gets, in order. -/
def Backend.recording {m : Type → Type} [Monad m] {ρ ε : Type} (backend : Backend m ρ ε) :
    Backend (StateT (List Call) m) ρ ε where
  rows query calls := do return (← backend.rows query, calls ++ [.rows query])
  number query calls := do return (← backend.number query, calls ++ [.number query])
  total entity calls := do return (← backend.total entity, calls ++ [.total entity])

inductive SearchFault (ε : Type) where
  | noEntity
  | backend (fault : ε)
  deriving DecidableEq

def SearchFault.message {ε : Type} (text : ε → String) : SearchFault ε → String
  | .noEntity => "total count requires a base entity"
  | .backend fault => "executor error: " ++ text fault

/-- Rows, and the counts if they were asked for. -/
structure Found (ρ : Type) where
  rows : List ρ
  matching : Option UInt64
  total : Option UInt64
  deriving DecidableEq

/-- A statement with the entity whose rows make up the total, if there is one. -/
structure Finder where
  select : Select
  entity : Option String

namespace Finder

variable {m : Type → Type} [Monad m] {ρ ε : Type}

/-- Makes a failure of the backend one of the search. -/
def answer {α : Type} (call : m (Except ε α)) : ExceptT (SearchFault ε) m α :=
  ExceptT.mk (return (← call).mapError SearchFault.backend)

def rows (finder : Finder) (backend : Backend m ρ ε) : ExceptT (SearchFault ε) m (List ρ) :=
  answer (backend.rows finder.select.query)

def firstRow (finder : Finder) (backend : Backend m ρ ε) :
    ExceptT (SearchFault ε) m (Option ρ) := do
  return (← answer (backend.rows finder.select.firstRowQuery)).head?

/-- The number of rows the filter lets through, whatever the window. -/
def matching (finder : Finder) (backend : Backend m ρ ε) : ExceptT (SearchFault ε) m UInt64 :=
  answer (backend.number finder.select.countingQuery)

/-- The number of all rows of an entity, by default that of the finder. -/
def total (finder : Finder) (backend : Backend m ρ ε) (entity : Option String) :
    ExceptT (SearchFault ε) m UInt64 :=
  match entity.or finder.entity with
  | none => throw .noEntity
  | some entity => answer (backend.total entity)

/-- Rows with their counts need an entity, and nothing is sent without one. -/
def search (finder : Finder) (backend : Backend m ρ ε) (counts : Bool) :
    ExceptT (SearchFault ε) m (Found ρ) := do
  if counts then
    match finder.entity with
    | none => throw .noEntity
    | some entity =>
      let rows ← finder.rows backend
      let matching ← finder.matching backend
      let total ← finder.total backend (some entity)
      return ⟨rows, some matching, some total⟩
  else
    return ⟨← finder.rows backend, none, none⟩

end Finder

end FilterSql
