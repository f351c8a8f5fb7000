import FilterSql.Proofs.Growth

/-! A filter on its own and the same filter in a request. The standalone restriction is read in the
scope of the main alias, that of a statement in the scope of all aliases. The second grows out of
the first, so joins add nothing to a filter that is accepted without them. -/

namespace FilterSql

theorem Filter.standalone_of_isWord {aliasName : String} (haliasName : IsWord aliasName)
    (filter : Filter) :
    filter.standalone aliasName =
      (filter.restriction .anywhere (Scope.ofMain aliasName) "").mapError
        (Fault.filter .filter) := by
  rw [standalone, Identifier.word_of_isWord haliasName]
  rfl

namespace Assembler

variable {assembler : Assembler} {request : Request} {filter : Filter} {main scope : Scope}

theorem filterRestriction_eq_standalone (hwildcards : assembler.wildcards = .anywhere)
    (hmain : assembler.mainScope = .ok main) :
    assembler.filterRestriction main (some filter) = filter.standalone assembler.aliasName := by
  obtain ⟨-, haliasName, rfl⟩ := mainScope_eq_ok hmain
  rw [Filter.standalone_of_isWord haliasName, filterRestriction, hwildcards]

theorem assemble_eq_error_of_filter {columns : List ColumnRef} {fault : Fault}
    (hmain : assembler.mainScope = .ok main)
    (hdeclared : declareJoins main request.joins = .ok scope)
    (hcolumns : selectColumns scope request.select = .ok columns)
    (hfault : assembler.filterRestriction scope request.filter = .error fault) :
    assembler.assemble request = .error fault := by
  refine bind_eq_error.2 (.inr ⟨main, hmain, bind_eq_error.2 (.inr ⟨scope, hdeclared, ?_⟩)⟩)
  exact bind_eq_error.2 (.inr ⟨columns, hcolumns, bind_eq_error.2 (.inl hfault)⟩)

/-- A filter that is accepted on its own restricts a statement in the same way, whatever joins have
been declared. -/
theorem Stages.filter_eq_of_standalone {select : Select} {restriction : Restriction}
    (h : assembler.Stages request main scope select) (hwildcards : assembler.wildcards = .anywhere)
    (hfilter : request.filter = some filter)
    (hrestriction : filter.standalone assembler.aliasName = .ok restriction) :
    select.filter = restriction := by
  rw [← filterRestriction_eq_standalone hwildcards h.opened, filterRestriction,
    mapError_eq_ok] at hrestriction
  have hagrees := Filter.restriction_agrees (grows_of_declareJoins h.declared)
    assembler.wildcards "" filter
  have hgrown := hagrees.eq_ok hrestriction
  have hselect := h.filter
  rw [hfilter, filterRestriction, mapError_eq_ok] at hselect
  exact Except.ok.inj (hselect.symm.trans hgrown)

/-- Without joins a request is refused for its filter when the filter is refused on its own, with
the same fault, and an accepted request has a filter that is accepted on its own. With or without
joins, a filter that is accepted on its own gives the text after `WHERE` and the first parameters of
every query of the statement. -/
theorem filter_agrees_with_standalone (hwildcards : assembler.wildcards = .anywhere)
    (hfilter : request.filter = some filter) :
    (∀ main columns fault, assembler.mainScope = .ok main →
      selectColumns main request.select = .ok columns → request.joins = [] →
      filter.standalone assembler.aliasName = .error fault →
        assembler.assemble request = .error fault) ∧
    (∀ select, request.joins = [] → assembler.assemble request = .ok select →
      ∃ restriction, filter.standalone assembler.aliasName = .ok restriction) ∧
    ∀ select restriction, assembler.assemble request = .ok select →
      filter.standalone assembler.aliasName = .ok restriction →
        select.filter = restriction ∧
        select.whereSql = (if restriction.sql = "" then "" else " WHERE " ++ restriction.sql) ∧
        ∀ query ∈ select.queries,
          (∃ before after, query.sql =
            before ++ (" FROM " ++ tableSql select.table select.aliasName ++
              String.join (select.joins.map Join.sql) ++ select.whereSql) ++ after) ∧
          restriction.bindings.entries <+: query.bindings.entries := by
  refine ⟨?_, ?_, ?_⟩
  · intro main columns fault hmain hcolumns hjoins hfault
    have hdeclared : declareJoins main request.joins = .ok main := by rw [hjoins, declareJoins]
    refine assemble_eq_error_of_filter hmain hdeclared hcolumns ?_
    rw [hfilter, filterRestriction_eq_standalone hwildcards hmain, hfault]
  · intro select hjoins hselect
    obtain ⟨main, scope, hstages⟩ := assemble_eq_ok.1 hselect
    have hdeclared := hstages.declared
    rw [hjoins, declareJoins] at hdeclared
    obtain rfl := Except.ok.inj hdeclared
    refine ⟨select.filter, ?_⟩
    rw [← filterRestriction_eq_standalone hwildcards hstages.opened, ← hfilter, hstages.filter]
  · intro select restriction hselect hrestriction
    obtain ⟨main, scope, hstages⟩ := assemble_eq_ok.1 hselect
    obtain rfl := hstages.filter_eq_of_standalone hwildcards hfilter hrestriction
    have hchecked := hstages.isChecked
    refine ⟨rfl, ?_, ?_⟩
    · obtain ⟨hfull, -⟩ := hstages.isFull_filter
      simp only [Select.whereSql, hfull.sql_eq_empty_iff]
    · intro query hquery
      obtain ⟨before, after, hsql, -, -⟩ := hchecked.exists_frame hquery
      refine ⟨⟨before, after, hsql⟩, ?_⟩
      rw [Select.bindings_of_mem_queries hquery, hchecked.entries_eq_flatMap, Select.conditions,
        List.flatMap_cons]
      exact List.prefix_append _ _

/-- A filter in a request with a join whose condition binds a parameter as well, and a filter with a
name that is no identifier. -/
theorem filter_agrees_with_standalone_joined :
    let filter := Filter.object [("age", .object [("$gt", .scalar (.int 3))])]
    let request : Request := { Request.empty with
      select := ["*"]
      filter := some filter
      joins := [⟨.left, "items", none, some (.object [("sum", .scalar (.int 5))])⟩] }
    let faulty := Filter.object [("a b", .scalar .null)]
    let refused : Request := { Request.empty with select := ["*"], filter := some faulty }
    let fault := Fault.identifier .filter (.foreignCharacter "a b")
    ∃ select restriction, (Assembler.ofTable "users").assemble request = .ok select ∧
      filter.standalone "users" = .ok restriction ∧
      select.whereSql = " WHERE users.age > :0" ∧
      restriction.bindings.entries <+: select.query.bindings.entries ∧
      select.query.bindings.names = ["0", "J_0_0"] ∧
      faulty.standalone "users" = .error fault ∧
      (Assembler.ofTable "users").assemble refused = .error fault := by
  intro filter request faulty refused fault
  obtain ⟨select, hselect, hnames⟩ : ∃ select,
      (Assembler.ofTable "users").assemble request = .ok select ∧
        select.query.bindings.names = ["0", "J_0_0"] :=
    ⟨_, by cbv, by cbv⟩
  obtain ⟨restriction, hrestriction, hsql⟩ : ∃ restriction,
      filter.standalone "users" = .ok restriction ∧ restriction.sql = "users.age > :0" :=
    ⟨_, by cbv, by cbv⟩
  have hfault : faulty.standalone "users" = .error fault := by cbv
  have hmain : (Assembler.ofTable "users").mainScope = .ok (Scope.ofMain "users") := by cbv
  have hcolumns : selectColumns (Scope.ofMain "users") ["*"] = .ok [.all "users"] := by cbv
  have haliasName : (Assembler.ofTable "users").aliasName = "users" := by cbv
  have hagrees := @filter_agrees_with_standalone (Assembler.ofTable "users") request filter rfl rfl
  have hrefuses := @filter_agrees_with_standalone (Assembler.ofTable "users") refused faulty rfl rfl
  rw [haliasName] at hagrees hrefuses
  obtain ⟨-, hwhere, hqueries⟩ := hagrees.2.2 select restriction hselect hrestriction
  rw [hsql] at hwhere
  exact ⟨select, restriction, hselect, hrestriction, hwhere,
    (hqueries select.query List.mem_cons_self).2, hnames, hfault,
    hrefuses.1 _ _ fault hmain hcolumns rfl hfault⟩

end Assembler

end FilterSql
