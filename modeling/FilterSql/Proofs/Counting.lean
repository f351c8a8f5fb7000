import FilterSql.Proofs.Assembly
import Mathlib

/-! What is counted. The core of a statement is the statement without order and window. Selected
columns and order terms take part in the checks of a request, but in nothing that its counting query
is made of, so the rows of the core are counted whatever is selected and in whatever order and
dialect it is asked for. -/

namespace FilterSql

/-- The request without order and window. -/
def Request.core (request : Request) : Request :=
  { request with order := [], window := .everything }

namespace Select

variable {select select' : Select}

/-- The statement without order and window. -/
def core (select : Select) : Select := { select with order := [], window := .everything }

/-- The statements agree in what a counting query is made of. -/
structure SameRows (select select' : Select) : Prop where
  table : select'.table = select.table
  aliasName : select'.aliasName = select.aliasName
  filter : select'.filter = select.filter
  joins : select'.joins = select.joins
  group : select'.group = select.group

theorem SameRows.countingQuery_eq (h : select.SameRows select') :
    select'.countingQuery = select.countingQuery := by
  obtain ⟨table, aliasName, dialect, columns, filter, order, group, joins, window⟩ := select
  obtain ⟨table', aliasName', dialect', columns', filter', order', group', joins', window'⟩ :=
    select'
  obtain ⟨rfl, rfl, rfl, rfl, rfl⟩ := h
  rfl

theorem core_sql (select : Select) :
    select.core.sql =
      "SELECT " ++ columnsSql select.columns ++ select.bodySql ++ select.groupSql := by
  have hwindow : select.dialect.windowSql .everything false = "" := by
    cases select.dialect <;> rfl
  calc
    select.core.sql = "SELECT " ++ columnsSql select.columns ++ select.bodySql ++
        select.groupSql ++ "" ++ select.dialect.windowSql .everything false := rfl
    _ = _ := by rw [hwindow, String.append_empty, String.append_empty]

/-- Grouped rows are counted as those of the core with the group columns selected. -/
theorem countingSql_of_group (select : Select) (hne : select.group ≠ []) :
    select.countingSql =
      "SELECT COUNT(*) AS count FROM (" ++ { select.core with columns := select.group }.sql ++
        ") grouped" := by
  have hcounted : { select.core with columns := select.group }.sql =
      "SELECT " ++ columnsSql select.group ++ select.bodySql ++ select.groupSql :=
    core_sql { select with columns := select.group }
  have hopening : "SELECT COUNT(*) AS count FROM (SELECT " =
      "SELECT COUNT(*) AS count FROM (" ++ "SELECT " := by decide
  rw [hcounted, countingSql, if_neg (by simpa using hne), hopening]
  simp only [String.append_assoc]

end Select

namespace Assembler

variable {assembler : Assembler} {request : Request} {select : Select} {main scope : Scope}

/-- The order decides whether grouping succeeds, not what it gives. -/
theorem groupColumns_nil {order : List (ColumnRef × Direction)} {names : Option (List String)}
    {group : List ColumnRef} (h : groupColumns scope order names = .ok group) :
    groupColumns scope [] names = .ok group := by
  cases names with
  | none => exact h
  | some names => exact bind_eq_ok.2 ⟨group, mapM_of_groupColumns h, rfl⟩

theorem Stages.core (h : assembler.Stages request main scope select) :
    assembler.Stages request.core main scope select.core :=
  { h with
    order := rfl
    group := groupColumns_nil h.group
    window := rfl }

/-- A column that can be grouped by can be selected. -/
theorem selectColumns_of_groupColumns {order : List (ColumnRef × Direction)} {names : List String}
    {group : List ColumnRef} (h : groupColumns scope order (some names) = .ok group)
    (hne : group ≠ []) : selectColumns scope names = .ok group := by
  have hcolumns := mapM_eq_ok.1 (mapM_of_groupColumns h)
  have hnames : names ≠ [] := by
    rintro rfl
    cases hcolumns
    exact hne rfl
  rw [selectColumns, if_neg (by simpa using hnames), mapM_eq_ok]
  refine hcolumns.imp fun name column hcolumn => mapError_eq_ok.2 ?_
  exact Scope.selected_of_column (mapError_eq_ok.1 hcolumn)

/-- With the group columns in the place of the selected ones the core is a statement as well. -/
theorem Stages.grouped (h : assembler.Stages request main scope select) {names : List String}
    (hgroup : request.group = some names) (hne : select.group ≠ []) :
    assembler.Stages { request.core with select := names } main scope
      { select.core with columns := select.group } :=
  { h.core with
    columns := selectColumns_of_groupColumns (hgroup ▸ h.group) hne
    order := rfl }

theorem joinClauses_dialect (dialect : Dialect) (ordinal : Nat) (joins : List JoinRequest) :
    { assembler with dialect := dialect }.joinClauses scope ordinal joins =
      assembler.joinClauses scope ordinal joins := by
  rw [joinClauses_eq_mapM, joinClauses_eq_mapM]
  rfl

theorem Stages.sameRows {dialect : Dialect} {request' : Request} {main' scope' : Scope}
    {select' : Select} (h : assembler.Stages request main scope select)
    (h' : { assembler with dialect := dialect }.Stages request' main' scope' select')
    (hfilter : request'.filter = request.filter) (hgroup : request'.group = request.group)
    (hjoins : request'.joins = request.joins) : select.SameRows select' := by
  obtain rfl : main' = main := Except.ok.inj (h'.opened.symm.trans h.opened)
  have hdeclared := h'.declared
  rw [hjoins] at hdeclared
  obtain rfl : scope' = scope := Except.ok.inj (hdeclared.symm.trans h.declared)
  have hfilter' := h'.filter
  rw [hfilter] at hfilter'
  have hgroup' := groupColumns_nil h'.group
  rw [hgroup] at hgroup'
  have hjoins' := h'.joins
  rw [hjoins, joinClauses_dialect] at hjoins'
  exact {
    table := h'.table.trans h.table.symm
    aliasName := h'.aliasName.trans h.aliasName.symm
    filter := Except.ok.inj (hfilter'.symm.trans h.filter)
    joins := Except.ok.inj (hjoins'.symm.trans h.joins)
    group := Except.ok.inj (hgroup'.symm.trans (groupColumns_nil h.group))
  }

/-- Statements that differ in selected columns, order, window and dialect only have one counting
query. It counts what the core selects from: its text holds that of the core without the selected
columns, which only a group replaces by columns of its own, and it has the parameters and tables of
the statement. -/
theorem counts_core (h : assembler.assemble request = .ok select) :
    (∀ (dialect : Dialect) (request' : Request) (select' : Select),
      request'.filter = request.filter → request'.group = request.group →
      request'.joins = request.joins →
      { assembler with dialect := dialect }.assemble request' = .ok select' →
        select'.countingQuery = select.countingQuery) ∧
    assembler.assemble request.core = .ok select.core ∧
    ∃ body group,
      body = " FROM " ++ tableSql select.table select.aliasName ++
        String.join (select.joins.map Join.sql) ++ select.whereSql ∧
      group = (if select.group = [] then "" else " GROUP BY " ++ columnsSql select.group) ∧
      select.core.query.sql = "SELECT " ++ columnsSql select.columns ++ body ++ group ∧
      select.query = ⟨"SELECT " ++ columnsSql select.columns ++ body ++ group ++ select.orderSql ++
        select.dialect.windowSql select.window (!select.order.isEmpty), select.bindings,
        select.tables⟩ ∧
      select.countingQuery = ⟨
        if select.group = [] then "SELECT COUNT(*) AS count" ++ body
        else "SELECT COUNT(*) AS count FROM (SELECT " ++ columnsSql select.group ++ body ++ group ++
          ") grouped", select.bindings, select.tables⟩ ∧
      ∀ names, request.group = some names → select.group ≠ [] →
        ∃ counted, assembler.assemble { request.core with select := names } = .ok counted ∧
          select.countingQuery.sql =
            "SELECT COUNT(*) AS count FROM (" ++ counted.query.sql ++ ") grouped" := by
  obtain ⟨main, scope, hstages⟩ := assemble_eq_ok.1 h
  refine ⟨?_, assemble_eq_ok.2 ⟨main, scope, hstages.core⟩, select.bodySql, select.groupSql, rfl,
    ?_, select.core_sql, rfl, ?_, ?_⟩
  · intro dialect request' select' hfilter hgroup hjoins h'
    obtain ⟨main', scope', hstages'⟩ := assemble_eq_ok.1 h'
    exact (hstages.sameRows hstages' hfilter hgroup hjoins).countingQuery_eq
  · simp only [Select.groupSql, List.isEmpty_iff]
  · simp only [Select.countingQuery, Select.queryOf, Select.countingSql, List.isEmpty_iff]
  · intro names hgroup hne
    exact ⟨_, assemble_eq_ok.2 ⟨main, scope, hstages.grouped hgroup hne⟩,
      select.countingSql_of_group hne⟩

/-- A grouped request, and one with the same core that selects, orders and pages otherwise. -/
theorem counts_core_grouped :
    let request : Request := { Request.empty with
      select := ["name"]
      filter := some (.object [("age", .scalar (.int 3))])
      group := some ["name"]
      joins := [⟨.left, "items", some "i", none⟩] }
    let request' : Request := { request with
      select := ["*"], order := [⟨"name", .descending⟩], window := ⟨some 5, some 10⟩ }
    ∃ select select', (ofTable "users").assemble request = .ok select ∧
      { ofTable "users" with dialect := .msSql }.assemble request' = .ok select' ∧
      select'.countingQuery = select.countingQuery ∧
      ∃ counted, (ofTable "users").assemble { request.core with select := ["name"] } =
          .ok counted ∧
        select.countingQuery.sql =
          "SELECT COUNT(*) AS count FROM (" ++ counted.query.sql ++ ") grouped" := by
  intro request request'
  obtain ⟨select, hselect, hgroup⟩ : ∃ select,
      (ofTable "users").assemble request = .ok select ∧ select.group = [.path "users" ["name"]] :=
    ⟨_, by cbv, by cbv⟩
  obtain ⟨select', hselect'⟩ : ∃ select',
      { ofTable "users" with dialect := .msSql }.assemble request' = .ok select' :=
    ⟨_, by cbv⟩
  obtain ⟨hcounting, -, -, -, -, -, -, -, -, hcounted⟩ := counts_core hselect
  exact ⟨select, select', hselect, hselect', hcounting .msSql request' select' rfl rfl rfl hselect',
    hcounted _ rfl (by simp [hgroup])⟩

end Assembler

end FilterSql
