import FilterSql.Finder
import FilterSql.Proofs.Paging

/-! The first row. The query for it is the query of the statement with its window narrowed to one
row, so against a backend that carries the paging text out it gives the first of the rows that the
statement gives. Only a window that takes no row at all is widened by it. -/

namespace FilterSql

variable {ρ : Type}

namespace Window

theorem rows_firstRow (window : Window) (result : List ρ) :
    window.firstRow.rows result = (window.kept result).head?.toList := by
  show (window.kept result).take 1 = (window.kept result).head?.toList
  cases window.kept result with
  | nil => rfl
  | cons row rest => rfl

theorem head?_rows {window : Window} (htake : window.take ≠ some 0) (result : List ρ) :
    (window.rows result).head? = (window.kept result).head? := by
  unfold Window.rows
  cases hwindow : window.take with
  | none => rfl
  | some take =>
      have hpos : take.toNat ≠ 0 := by
        intro hzero
        apply htake
        rw [hwindow, ← UInt64.toNat_inj.1 (hzero.trans UInt64.toNat_zero.symm)]
      show ((window.kept result).take take.toNat).head? = (window.kept result).head?
      rw [List.head?_take, if_neg hpos]

theorem rows_of_take_zero {window : Window} (htake : window.take = some 0) (result : List ρ) :
    window.rows result = [] := by
  unfold Window.rows
  rw [htake]
  exact List.take_zero

/-- Only where no row is to be taken but one could be is the first row not that of the window. -/
theorem rows_firstRow_eq_iff (window : Window) (result : List ρ) :
    window.firstRow.rows result = (window.rows result).head?.toList ↔
      (window.take = some 0 → window.kept result = []) := by
  rw [rows_firstRow]
  by_cases htake : window.take = some 0
  · rw [rows_of_take_zero htake]
    cases hkept : window.kept result with
    | nil => simp
    | cons row rest => simp [htake]
  · rw [head?_rows htake]
    simp [htake]

end Window

/-! ### Backends -/

section

variable {m : Type → Type} [Monad m] {ε : Type}

/-- Whatever the call does on its way, it gives the value. -/
def Answers {α : Type} (call : m (Except ε α)) (value : α) : Prop :=
  ∃ effect : m Unit, call = do effect; return .ok value

/-- The backend carries out the paging text behind the clauses of the statement on the rows that
the clauses alone select. -/
def Backend.Honours (backend : Backend m ρ ε) (select : Select) (result : List ρ) : Prop :=
  ∀ suffix paging, select.dialect.read? suffix = some paging →
    Answers (backend.rows (select.queryOf (select.clausesSql ++ suffix))) (paging.rows result)

/-- A backend that reads the text behind the clauses. -/
def Backend.reading (select : Select) (result : List ρ) : Backend Id ρ Unit where
  rows query :=
    let suffix := String.ofList (query.sql.toList.drop select.clausesSql.toList.length)
    match select.dialect.read? suffix with
    | some paging => .ok (paging.rows result)
    | none => .error ()
  number _ := .error ()
  total _ := .error ()

theorem Backend.honours_reading (select : Select) (result : List ρ) :
    (Backend.reading select result).Honours select result := by
  intro suffix paging hread
  refine ⟨(), ?_⟩
  have hsuffix : String.ofList ((select.clausesSql ++ suffix).toList.drop
      select.clausesSql.toList.length) = suffix := by
    rw [String.toList_append, List.drop_left, String.ofList_toList]
  simp only [Backend.reading, Select.queryOf, hsuffix, hread]
  rfl

namespace Finder

variable [LawfulMonad m]

theorem answers_answer {α : Type} {call : m (Except ε α)} {value : α} (h : Answers call value) :
    Answers (answer call).run value := by
  obtain ⟨effect, rfl⟩ := h
  refine ⟨effect, ?_⟩
  simp [answer, Except.mapError]

theorem answers_firstRow {finder : Finder} {backend : Backend m ρ ε} {rows : List ρ}
    (h : Answers (backend.rows finder.select.firstRowQuery) rows) :
    Answers (finder.firstRow backend).run rows.head? := by
  obtain ⟨effect, heffect⟩ := answers_answer h
  refine ⟨effect, ?_⟩
  simp [firstRow, heffect, Except.map]

end Finder

end

namespace Assembler

variable {assembler : Assembler} {request : Request} {select : Select}

/-- The query for the first row is that of the statement but for the paging text. Unless no row is
to be taken, that text asks for the first of the rows that the statement asks for, and a backend
that honours both texts gives the first row exactly where it gives rows. A window that takes no row
gives none, and the first row is then that behind the skipped ones. -/
theorem firstRow_heads_rows (h : assembler.assemble request = .ok select) :
    ∃ suffix suffix' paging paging',
      select.query = select.queryOf (select.clausesSql ++ suffix) ∧
      select.firstRowQuery = select.queryOf (select.clausesSql ++ suffix') ∧
      assembler.dialect.read? suffix = some paging ∧
      assembler.dialect.read? suffix' = some paging' ∧
      ∀ {ρ : Type} (result : List ρ), result.length < UInt64.size →
        (paging'.rows result = (paging.rows result).head?.toList ↔
          (request.window.take = some 0 → request.window.kept result = [])) ∧
        paging.rows result = request.window.rows result ∧
        paging'.rows result = (request.window.kept result).head?.toList ∧
        (request.window.take = some 0 → paging.rows result = []) ∧
        ∀ {m : Type → Type} [Monad m] [LawfulMonad m] {ε : Type} (backend : Backend m ρ ε)
          (entity : Option String), backend.Honours select result →
            Answers (Finder.rows ⟨select, entity⟩ backend).run (paging.rows result) ∧
              Answers (Finder.firstRow ⟨select, entity⟩ backend).run
                (if request.window.take = some 0 then (request.window.kept result).head?
                else (paging.rows result).head?) := by
  obtain ⟨main, scope, hstages⟩ := assemble_eq_ok.1 h
  have hread := assembler.dialect.read?_windowSql request.window (!select.order.isEmpty)
  have hread' := assembler.dialect.read?_windowSql request.window.firstRow (!select.order.isEmpty)
  have hquery : select.query = select.queryOf (select.clausesSql ++
      assembler.dialect.windowSql request.window (!select.order.isEmpty)) := by
    rw [← hstages.dialect, ← hstages.window]
    rfl
  have hquery' : select.firstRowQuery = select.queryOf (select.clausesSql ++
      assembler.dialect.windowSql request.window.firstRow (!select.order.isEmpty)) := by
    rw [← hstages.dialect, ← hstages.window]
    rfl
  refine ⟨_, _, _, _, hquery, hquery', hread, hread', ?_⟩
  intro ρ result hresult
  have hrows := assembler.dialect.rows_paging request.window hresult
  have hfirst := assembler.dialect.rows_paging request.window.firstRow hresult
  have hkept := request.window.rows_firstRow result
  rw [hrows, hfirst]
  refine ⟨request.window.rows_firstRow_eq_iff result, rfl, hkept,
    fun htake => Window.rows_of_take_zero htake result, ?_⟩
  intro m _ _ ε backend entity hbackend
  rw [← hstages.dialect] at hread hread'
  have hfound := hbackend _ _ hread
  have hone := hbackend _ _ hread'
  rw [hstages.dialect, ← hquery, hrows] at hfound
  rw [hstages.dialect, ← hquery', hfirst, hkept] at hone
  have hanswer : Answers (Finder.firstRow ⟨select, entity⟩ backend).run
      (request.window.kept result).head?.toList.head? := Finder.answers_firstRow hone
  rw [Option.head?_toList] at hanswer
  refine ⟨Finder.answers_answer hfound, ?_⟩
  by_cases htake : request.window.take = some 0
  · rwa [if_pos htake]
  · rwa [if_neg htake, Window.head?_rows htake]

/-- A statement that takes two rows behind the first. -/
theorem firstRow_heads_rows_skipping :
    let request : Request := { Request.empty with
      select := ["id"], window := ⟨some 2, some 1⟩ }
    ∃ select, (ofTable "users").assemble request = .ok select ∧
      Answers (Finder.rows ⟨select, none⟩ (Backend.reading select [4, 5, 6])).run [5, 6] ∧
      Answers (Finder.firstRow ⟨select, none⟩ (Backend.reading select [4, 5, 6])).run
        (some 5) := by
  intro request
  obtain ⟨select, hselect⟩ : ∃ select, (ofTable "users").assemble request = .ok select :=
    ⟨_, by cbv⟩
  obtain ⟨suffix, suffix', paging, paging', -, -, -, -, hrows⟩ := firstRow_heads_rows hselect
  obtain ⟨-, hpaging, -, -, hbackend⟩ := hrows [4, 5, 6] (by decide)
  have hanswers := hbackend _ none (Backend.honours_reading select [4, 5, 6])
  rw [hpaging] at hanswers
  exact ⟨select, hselect, hanswers⟩

/-- A statement that takes no row asks for none, but its query for the first row asks for one. -/
theorem firstRow_ne_head_of_take_zero :
    let request : Request := { Request.empty with select := ["id"], window := ⟨some 0, none⟩ }
    ∃ select paging paging', (ofTable "users").assemble request = .ok select ∧
      select.query.sql = select.clausesSql ++ " LIMIT 0" ∧
      select.firstRowQuery.sql = select.clausesSql ++ " LIMIT 1" ∧
      Dialect.postgres.read? " LIMIT 0" = some paging ∧
      Dialect.postgres.read? " LIMIT 1" = some paging' ∧
      paging.rows [()] = [] ∧ paging'.rows [()] = [()] ∧
      paging'.rows [()] ≠ (paging.rows [()]).head?.toList := by
  intro request
  obtain ⟨select, hselect, hquery, hfirst⟩ : ∃ select,
      (ofTable "users").assemble request = .ok select ∧
        select.query.sql = select.clausesSql ++ " LIMIT 0" ∧
        select.firstRowQuery.sql = select.clausesSql ++ " LIMIT 1" :=
    ⟨_, by cbv, by decide, by decide⟩
  exact ⟨select, ⟨none, some 0⟩, ⟨none, some 1⟩, hselect, hquery, hfirst, by decide, by decide, rfl,
    rfl, by decide⟩

end Assembler

end FilterSql
