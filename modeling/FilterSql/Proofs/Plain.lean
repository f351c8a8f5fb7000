import FilterSql.Proofs.Assembly
import FilterSql.Proofs.Comparison

/-! The characters of SQL text. Outside of conditions a statement holds no colon, and the texts of
its clauses are made of words, dots and a few marks, whatever the request was. -/

namespace FilterSql

/-- The characters of SQL text, but for the colon that marks a parameter. -/
def isPlainChar (c : Char) : Bool :=
  isPathChar c || c ∈ [' ', '*', ',', '(', ')', '=', '<', '>', '!', '~']

theorem isPlainChar_of_isPathChar {c : Char} (h : isPathChar c = true) : isPlainChar c = true := by
  simp [isPlainChar, h]

theorem MadeOf.isPlain {text : String} (h : MadeOf isPathChar text) : MadeOf isPlainChar text :=
  h.mono fun _ => isPlainChar_of_isPathChar

theorem IsWord.isPlain {text : String} (h : IsWord text) : MadeOf isPlainChar text :=
  h.isPath.isPlain

theorem colon_notMem_of_isPlain {text : String} (h : MadeOf isPlainChar text) :
    ':' ∉ text.toList :=
  fun hmem => absurd (h ':' hmem) (by decide)

theorem Operator.isPlain_sql (operator : Operator) : MadeOf isPlainChar operator.sql := by
  cases operator <;> decide

theorem Connective.isPlain_separator (connective : Connective) :
    MadeOf isPlainChar connective.separator := by
  cases connective <;> decide

/-- A separator starts with a blank, so it ends the last name of the part in front of it. -/
theorem Connective.stops_separator (connective : Connective) (rest : String) :
    Stops isWordChar (connective.separator ++ rest).toList := by
  cases connective <;> exact stops_toList_append (by decide) rest

theorem Direction.isPlain_sql (direction : Direction) : MadeOf isPlainChar direction.sql := by
  cases direction <;> decide

theorem JoinKind.isPlain_sql (kind : JoinKind) : MadeOf isPlainChar kind.sql := by
  cases kind <;> decide

/-! ### Names -/

theorem ColumnRef.IsSingle.isPlain {column : ColumnRef} (h : column.IsSingle) :
    MadeOf isPlainChar column.sql :=
  h.isPath.isPlain

theorem ColumnRef.IsNamed.isPlain {column : ColumnRef} (h : column.IsNamed) :
    MadeOf isPlainChar column.sql := by
  cases column with
  | path owner segments => exact IsSingle.isPlain ⟨rfl, h⟩
  | all owner =>
      have howner : IsWord owner := h
      have hstar : MadeOf isPlainChar (".".intercalate ["*"]) := by decide
      exact (howner.isPlain.append (by decide)).append hstar

theorem IsPath.isPlain {text : String} (h : IsPath text) : MadeOf isPlainChar text :=
  h.madeOf.isPlain

theorem isPlain_tableSql {table aliasName : String} (htable : IsPath table)
    (haliasName : IsWord aliasName) : MadeOf isPlainChar (tableSql table aliasName) := by
  unfold tableSql
  split
  · exact htable.isPlain
  · exact (htable.isPlain.append (by decide)).append haliasName.isPlain

theorem isPlain_columnsSql {columns : List ColumnRef} (h : ∀ column ∈ columns, column.IsNamed) :
    MadeOf isPlainChar (columnsSql columns) := by
  apply MadeOf.intercalate (by decide)
  intro text htext
  obtain ⟨column, hcolumn, rfl⟩ := List.mem_map.1 htext
  exact (h column hcolumn).isPlain

/-! ### Clauses

Every clause starts with a blank or is missing, so it never extends a name in front of it. -/

/-- Plain text that does not start within a word. -/
structure IsClause (text : String) : Prop where
  plain : MadeOf isPlainChar text
  stops : Stops isWordChar text.toList

theorem isClause_empty : IsClause "" := ⟨by decide, by decide⟩

theorem IsClause.append {text text' : String} (h : IsClause text) (h' : IsClause text') :
    IsClause (text ++ text') := by
  refine ⟨h.plain.append h'.plain, ?_⟩
  rw [String.toList_append]
  exact h.stops.append h'.stops

theorem isClause_append {keyword text : String} (hplain : MadeOf isPlainChar keyword)
    (hhead : keyword.toList.head?.any (fun c => !isWordChar c) = true)
    (htext : MadeOf isPlainChar text) : IsClause (keyword ++ text) :=
  ⟨hplain.append htext, stops_toList_append hhead text⟩

namespace Dialect

theorem isClause_limit (count : UInt64) : IsClause (limit count) :=
  isClause_append (by decide) (by decide) (isWord_toString _).isPlain

theorem isClause_offset (count : UInt64) : IsClause (offset count) :=
  isClause_append (by decide) (by decide) (isWord_toString _).isPlain

theorem isClause_offsetRows (count : UInt64) : IsClause (offsetRows count) :=
  (isClause_offset count).append ⟨by decide, by decide⟩

theorem isClause_fetchRows (count : UInt64) : IsClause (fetchRows count) :=
  (isClause_append (by decide) (by decide) (isWord_toString _).isPlain).append
    ⟨by decide, by decide⟩

theorem isClause_optional {text : UInt64 → String} (htext : ∀ count, IsClause (text count))
    (count : Option UInt64) : IsClause (optional text count) := by
  cases count with
  | none => exact isClause_empty
  | some count => exact htext count

theorem isClause_windowSql (dialect : Dialect) (window : Window) (ordered : Bool) :
    IsClause (dialect.windowSql window ordered) := by
  cases dialect with
  | postgres =>
      exact (isClause_optional isClause_limit _).append (isClause_optional isClause_offset _)
  | mySql =>
      unfold windowSql
      dsimp only
      split
      · exact isClause_optional isClause_limit _
      · exact (isClause_limit _).append (isClause_offset _)
  | msSql =>
      unfold windowSql
      dsimp only
      split
      · exact isClause_empty
      · refine .append (.append ?_ (isClause_offsetRows _)) (isClause_optional isClause_fetchRows _)
        cases ordered
        · exact ⟨by decide, by decide⟩
        · exact isClause_empty
  | oracle =>
      exact (isClause_optional isClause_offsetRows _).append
        (isClause_optional isClause_fetchRows _)

end Dialect

namespace Select

variable {scope : Scope} {select : Select}

theorem IsChecked.isClause_groupSql (h : select.IsChecked scope) : IsClause select.groupSql := by
  unfold groupSql
  split
  · exact isClause_empty
  · exact isClause_append (by decide) (by decide)
      (isPlain_columnsSql fun column hcolumn => (h.group column hcolumn).2)

theorem IsChecked.isClause_orderSql (h : select.IsChecked scope) : IsClause select.orderSql := by
  unfold orderSql
  split
  · exact isClause_empty
  · apply isClause_append (by decide) (by decide)
    apply MadeOf.intercalate (by decide)
    intro text htext
    obtain ⟨⟨column, direction⟩, hterm, rfl⟩ := List.mem_map.1 htext
    exact ((h.order _ hterm).isPlain.append (by decide)).append direction.isPlain_sql

/-- The queries of a statement. -/
def queries (select : Select) : List Query :=
  [select.query, select.firstRowQuery, select.countingQuery]

/-- All three texts are the shared body between plain texts, and what follows it is a clause or a
closing parenthesis. -/
theorem IsChecked.exists_frame (h : select.IsChecked scope) {query : Query}
    (hquery : query ∈ select.queries) :
    ∃ before after, query.sql = before ++ select.bodySql ++ after ∧
      MadeOf isPlainChar before ∧ IsClause after := by
  have hcolumns := isPlain_columnsSql h.columns
  have hwindowed : ∀ window, ∃ before after,
      select.windowedSql window = before ++ select.bodySql ++ after ∧
        MadeOf isPlainChar before ∧ IsClause after := by
    intro window
    refine ⟨"SELECT " ++ columnsSql select.columns, select.groupSql ++ select.orderSql ++
      select.dialect.windowSql window (!select.order.isEmpty), ?_, ?_, ?_⟩
    · simp only [windowedSql, String.append_assoc]
    · exact .append (by decide) hcolumns
    · exact (h.isClause_groupSql.append h.isClause_orderSql).append
        (Dialect.isClause_windowSql _ _ _)
  simp only [queries, List.mem_cons, List.not_mem_nil, or_false] at hquery
  rcases hquery with rfl | rfl | rfl
  · exact hwindowed _
  · exact hwindowed _
  · unfold countingQuery queryOf countingSql
    dsimp only
    split
    · exact ⟨"SELECT COUNT(*) AS count", "", by simp, by decide, isClause_empty⟩
    · refine ⟨"SELECT COUNT(*) AS count FROM (SELECT " ++ columnsSql select.group,
        select.groupSql ++ ") grouped", ?_, ?_, ?_⟩
      · simp only [String.append_assoc]
      · exact .append (by decide)
          (isPlain_columnsSql fun column hcolumn => (h.group column hcolumn).2)
      · exact h.isClause_groupSql.append ⟨by decide, by decide⟩

end Select

end FilterSql
