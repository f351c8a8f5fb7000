import FilterSql.Proofs.Positional

/-! The alphabet of generated SQL. No text of a request reaches a query except through a reader, so
nothing that could quote, comment or separate is ever written; the positional form adds its own
placeholder marks only. -/

namespace FilterSql

def isSqlChar (c : Char) : Bool :=
  c.isAlphanum ||
    c ∈ ['_', '.', '*', ',', '(', ')', ':', '=', '<', '>', '!', '~', ' ']

/-- The characters of positional SQL. -/
def isPositionalChar (c : Char) : Bool := isSqlChar c || c ∈ ['$', '?', '@']

theorem isSqlChar_of_isPlainChar {c : Char} (h : isPlainChar c = true) : isSqlChar c = true := by
  simp only [isPlainChar, isPathChar, isWordChar, isSqlChar, Bool.or_eq_true, decide_eq_true_eq,
    List.mem_cons, List.not_mem_nil, or_false] at h ⊢
  tauto

theorem MadeOf.isSql {text : String} (h : MadeOf isPlainChar text) : MadeOf isSqlChar text :=
  h.mono fun _ => isSqlChar_of_isPlainChar

variable {scope : Scope} {name space : String}

/-! ### Conditions -/

theorem Term.Follows.isSql {operator : String} {term : Term} (h : term.Follows operator) :
    MadeOf isSqlChar term.sql := by
  cases term with
  | parameter name => exact .append (by decide) h.2.isPlain.isSql
  | spread name => exact .append (.append (by decide) h.2.isPlain.isSql) (by decide)
  | between low high =>
      exact (((MadeOf.append (by decide) h.2.1.isPlain.isSql).append (by decide))).append
        h.2.2.isPlain.isSql
  | column other => exact h.2.isPlain.isSql

theorem Predicate.Placed.isSql {predicate : Predicate} (h : predicate.Placed scope name)
    (howner : IsWord scope.owner) (hname : IsWord name) : MadeOf isSqlChar predicate.sql := by
  rw [sql_eq_term]
  refine .append ?_ (h.follows howner hname).isSql
  exact ((((h.isSingle howner).isPlain.append (by decide)).append
    predicate.operator.isPlain_sql).append (by decide)).isSql

theorem Expr.isSql_intercalate (connective : Connective) {parts : List Expr}
    (hparts : ∀ part ∈ parts, MadeOf isSqlChar part.sql) :
    MadeOf isSqlChar (connective.separator.intercalate (partsSql parts)) := by
  rw [partsSql_eq_map]
  exact .intercalate connective.isPlain_separator.isSql (List.forall_mem_map.2 hparts)

theorem Expr.Placed.isSql {expr : Expr} (h : expr.Placed scope name) (howner : IsWord scope.owner)
    (hname : IsWord name) : MadeOf isSqlChar expr.sql := by
  refine h.word_induction hname (fun h hname => h.isSql howner hname) ?_
  intro connective parts hparts
  unfold Expr.ofParts
  split
  · simpa using hparts
  · exact .append (.append (by decide) (isSql_intercalate connective hparts)) (by decide)

theorem Restriction.Placed.isSql {restriction : Restriction} (h : restriction.Placed scope space)
    (howner : IsWord scope.owner) (hspace : MadeOf isWordChar space) :
    MadeOf isSqlChar restriction.sql := by
  apply Expr.isSql_intercalate
  intro part hpart
  obtain ⟨name, hname, hplaced⟩ := h.exists_word hspace hpart
  exact hplaced.isSql howner hname

/-! ### Statements -/

theorem Join.IsChecked.isSql {ordinal : Nat} {join : Join} (h : join.IsChecked scope ordinal) :
    MadeOf isSqlChar join.sql := by
  refine .append h.isPlain_front.isSql ?_
  unfold conditionSql
  split
  · decide
  · exact h.condition.isSql h.aliasName (madeOf_joinSpace ordinal)

namespace Select

variable {select : Select}

theorem IsChecked.isSql_whereSql (h : select.IsChecked scope) :
    MadeOf isSqlChar select.whereSql := by
  unfold whereSql
  split
  · decide
  · exact .append (by decide) (h.filter.isSql h.named.owner (by decide))

theorem IsChecked.isSql_bodySql (h : select.IsChecked scope) : MadeOf isSqlChar select.bodySql := by
  refine .append (.append (.append (by decide) ?_) ?_) h.isSql_whereSql
  · exact (isPlain_tableSql h.table h.aliasName).isSql
  · apply MadeOf.join
    intro text htext
    obtain ⟨join, hjoin, rfl⟩ := List.mem_map.1 htext
    obtain ⟨ordinal, hchecked⟩ := h.exists_join hjoin
    exact hchecked.isSql

theorem IsChecked.isSql (h : select.IsChecked scope) {query : Query}
    (hquery : query ∈ select.queries) : MadeOf isSqlChar query.sql := by
  obtain ⟨before, after, hsql, hbefore, hafter⟩ := h.exists_frame hquery
  rw [hsql]
  exact (hbefore.isSql.append h.isSql_bodySql).append hafter.plain.isSql

end Select

/-! ### Positional form -/

theorem Dialect.isPositional_placeholder (dialect : Dialect) (position : Nat) :
    MadeOf isPositionalChar (dialect.placeholder position) := by
  have hposition : MadeOf isPositionalChar (toString position) :=
    (isWord_toString position).isPlain.isSql.mono fun c hc => by simp [isPositionalChar, hc]
  cases dialect with
  | postgres => exact .append (by decide) hposition
  | mySql => exact (by decide : MadeOf isPositionalChar "?")
  | msSql => exact .append (by decide) hposition
  | oracle => exact .append (by decide) hposition

/-- Filling keeps the characters around the slots and writes placeholders for the slots. -/
theorem Segment.isPositional_of_fill {dialect : Dialect} {bindings : Bindings} {position : Nat}
    {segments : List Segment} {text : List Char} {values : List Scalar}
    (hsegments : ∀ c, Segment.char c ∈ segments → isSqlChar c = true)
    (h : fill dialect bindings position segments = .ok (text, values)) :
    ∀ c ∈ text, isPositionalChar c = true := by
  induction segments generalizing position text values with
  | nil =>
      obtain ⟨rfl, -⟩ := Prod.mk.inj (Except.ok.inj h)
      simp
  | cons segment segments ih =>
      have hrest : ∀ c, Segment.char c ∈ segments → isSqlChar c = true :=
        fun c hc => hsegments c (List.mem_cons_of_mem _ hc)
      cases segment with
      | char c =>
          obtain ⟨⟨front, more⟩, hfill, h⟩ := bind_eq_ok.1 h
          obtain ⟨rfl, -⟩ := Prod.mk.inj (pure_eq_ok.1 h)
          refine List.forall_mem_cons.2 ⟨?_, ih hrest hfill⟩
          simp [isPositionalChar, hsegments c (by simp)]
      | slot name spread =>
          unfold fill at h
          split at h
          · obtain ⟨⟨front, more⟩, hfill, h⟩ := bind_eq_ok.1 h
            obtain ⟨rfl, -⟩ := Prod.mk.inj (pure_eq_ok.1 h)
            exact List.forall_mem_append.2
              ⟨dialect.isPositional_placeholder position, ih hrest hfill⟩
          · next items _ =>
              obtain ⟨⟨front, more⟩, hfill, h⟩ := bind_eq_ok.1 h
              obtain ⟨rfl, -⟩ := Prod.mk.inj (pure_eq_ok.1 h)
              refine List.forall_mem_append.2 ⟨?_, ih hrest hfill⟩
              apply MadeOf.intercalate (by decide)
              exact List.forall_mem_map.2 fun position _ =>
                dialect.isPositional_placeholder position
          · simp at h
          · simp at h

theorem Query.isPositional_of_positional {query : Query} {dialect : Dialect}
    {positional : PositionalQuery} (hsql : MadeOf isSqlChar query.sql)
    (h : query.positional dialect = .ok positional) : MadeOf isPositionalChar positional.sql := by
  obtain ⟨segments, hsegments, h⟩ := bind_eq_ok.1 h
  obtain ⟨⟨text, values⟩, hfill, h⟩ := bind_eq_ok.1 h
  obtain rfl := pure_eq_ok.1 h
  obtain ⟨hspelling, -⟩ := Segment.spelling_of_ofChars hsegments
  intro c hc
  rw [String.toList_ofList] at hc
  refine Segment.isPositional_of_fill ?_ hfill c hc
  intro c hc
  apply hsql
  rw [← hspelling]
  exact List.mem_flatMap.2 ⟨.char c, hc, by simp [Segment.spelling]⟩

theorem Filter.isSql_of_standalone {aliasName : String} {filter : Filter}
    {restriction : Restriction} (h : filter.standalone aliasName = .ok restriction) :
    MadeOf isSqlChar restriction.sql := by
  obtain ⟨haliasName, hrestriction⟩ := standalone_eq_ok h
  exact (placed_of_restriction hrestriction).isSql haliasName (by decide)

/-- Whatever the texts of a request, the generated SQL holds no character outside the alphabet. -/
theorem madeOf_isSqlChar :
    (∀ (assembler : Assembler) (request : Request) (select : Select),
      assembler.assemble request = .ok select →
        MadeOf isSqlChar select.sql ∧
        ∀ query ∈ select.queries, MadeOf isSqlChar query.sql ∧
          ∀ dialect positional, query.positional dialect = .ok positional →
            MadeOf isPositionalChar positional.sql) ∧
    ∀ (aliasName : String) (filter : Filter) (restriction : Restriction),
      filter.standalone aliasName = .ok restriction → MadeOf isSqlChar restriction.sql := by
  refine ⟨?_, fun _ _ _ h => Filter.isSql_of_standalone h⟩
  intro assembler request select h
  obtain ⟨main, scope, hstages⟩ := Assembler.assemble_eq_ok.1 h
  have hqueries : ∀ query ∈ select.queries, MadeOf isSqlChar query.sql :=
    fun _ hquery => hstages.isChecked.isSql hquery
  refine ⟨hqueries select.query (by simp [Select.queries]), ?_⟩
  intro query hquery
  exact ⟨hqueries query hquery, fun _ _ hpositional =>
    Query.isPositional_of_positional (hqueries query hquery) hpositional⟩

theorem madeOf_isSqlChar_quoted :
    let filter := Filter.object [("name", .scalar (.text "'; DROP TABLE users --"))]
    ∃ select restriction,
      (Assembler.ofTable "users").assemble
        { Request.empty with select := ["*"], filter := some filter } = .ok select ∧
      filter.standalone "users" = .ok restriction ∧
      MadeOf isSqlChar select.sql ∧ MadeOf isSqlChar restriction.sql := by
  intro filter
  obtain ⟨select, hselect⟩ : ∃ select, (Assembler.ofTable "users").assemble
      { Request.empty with select := ["*"], filter := some filter } = .ok select := ⟨_, by cbv⟩
  obtain ⟨restriction, hrestriction⟩ : ∃ restriction,
      filter.standalone "users" = .ok restriction := ⟨_, by cbv⟩
  exact ⟨select, restriction, hselect, hrestriction, (madeOf_isSqlChar.1 _ _ _ hselect).1,
    madeOf_isSqlChar.2 _ _ _ hrestriction⟩

end FilterSql
