import FilterSql.Proofs.Blank
import FilterSql.Proofs.Positional

/-! The values of a filter never reach the text. Lowering and assembling commute with blanking, and
a blank statement has the text and the parameters of the original, so two requests that differ in
their values only give the same text and the same parameters in the same order. -/

namespace FilterSql

/-! ### Expressions -/

namespace Predicate

def blank : Predicate → Predicate
  | .compare column operator parameter _ => .compare column operator parameter .blank
  | .member column operator parameter _ => .member column operator parameter [.blank]
  | .range column operator parameter _ _ => .range column operator parameter .blank .blank
  | .columns column operator other => .columns column operator other

theorem sql_blank (predicate : Predicate) : predicate.blank.sql = predicate.sql := by
  cases predicate <;> rfl

theorem slots_blank (predicate : Predicate) :
    predicate.blank.arguments.map Argument.slot = predicate.arguments.map Argument.slot := by
  cases predicate <;> rfl

theorem ofCheck_blank {scope : Scope} {column : ColumnRef} {name : String} {check : Check}
    {predicate : Predicate} (h : ofCheck scope column name check = .ok predicate) :
    ofCheck scope column name check.blank = .ok predicate.blank := by
  rw [ofCheck_eq_ok] at h ⊢
  cases h with
  | compare hoperator => exact .compare hoperator
  | member hoperator => exact .member hoperator
  | range hoperator => exact .range hoperator
  | columns hoperator hother => exact .columns hoperator hother

end Predicate

namespace Expr

mutual

def blank : Expr → Expr
  | .leaf predicate => .leaf predicate.blank
  | .group connective parts => .group connective (blankParts parts)
termination_by structural expression => expression

def blankParts : List Expr → List Expr
  | [] => []
  | part :: parts => blank part :: blankParts parts
termination_by structural parts => parts

end

theorem blankParts_eq_map (parts : List Expr) : blankParts parts = parts.map blank := by
  induction parts with
  | nil => rfl
  | cons part parts ih => rw [blankParts, ih, List.map_cons]

theorem blank_ofParts (connective : Connective) (parts : List Expr) :
    (ofParts connective parts).blank = ofParts connective (parts.map blank) := by
  match parts with
  | [] => rfl
  | [part] => rfl
  | part :: next :: rest =>
      simp only [ofParts, blank, blankParts_eq_map, List.map_cons]

mutual

theorem sql_blank : ∀ expr : Expr, expr.blank.sql = expr.sql
  | .leaf predicate => predicate.sql_blank
  | .group connective parts => by rw [blank, sql, sql, partsSql_blank parts]
termination_by structural expr => expr

theorem partsSql_blank : ∀ parts : List Expr, partsSql (blankParts parts) = partsSql parts
  | [] => rfl
  | part :: parts => by rw [blankParts, partsSql, partsSql, sql_blank part, partsSql_blank parts]
termination_by structural parts => parts

end

mutual

theorem slots_blank : ∀ expr : Expr,
    expr.blank.arguments.map Argument.slot = expr.arguments.map Argument.slot
  | .leaf predicate => predicate.slots_blank
  | .group connective parts => by rw [blank, arguments, arguments, partsSlots_blank parts]
termination_by structural expr => expr

theorem partsSlots_blank : ∀ parts : List Expr,
    (partsArguments (blankParts parts)).map Argument.slot =
      (partsArguments parts).map Argument.slot
  | [] => rfl
  | part :: parts => by
      rw [blankParts, partsArguments, partsArguments, List.map_append, List.map_append,
        slots_blank part, partsSlots_blank parts]
termination_by structural parts => parts

end

theorem ofTest_blank {scope : Scope} {column : ColumnRef} {name : String} {test : Test}
    {part : Expr} (h : ofTest scope column name test = .ok part) :
    ofTest scope column name test.blank = .ok part.blank := by
  cases test with
  | equals value =>
      rw [ofTest] at h
      obtain ⟨predicate, hpredicate, rfl⟩ := map_eq_ok.1 h
      exact map_eq_ok.2 ⟨_, Predicate.ofCheck_blank hpredicate, rfl⟩
  | every checks =>
      rw [ofTest] at h
      obtain ⟨parts, hparts, rfl⟩ := map_eq_ok.1 h
      rw [Test.blank, ofTest, List.length_map, blank_ofParts]
      refine map_eq_ok.2 ⟨_, ?_, rfl⟩
      rw [ofChecks_eq_mapM] at hparts ⊢
      rw [List.zipIdx_map]
      refine mapM_map_eq_ok ?_ hparts
      intro check _ part hpart
      obtain ⟨predicate, hpredicate, rfl⟩ := map_eq_ok.1 hpart
      exact map_eq_ok.2 ⟨_, Predicate.ofCheck_blank hpredicate, rfl⟩

end Expr

/-! ### Formulas -/

namespace Formula

variable {scope : Scope}

theorem length_blank (formula : Formula) : formula.blank.length = formula.length := by
  cases formula with
  | conjunction entries => simp [blank, length, blankEntries_eq_map]
  | disjunction branches => simp [blank, length, blankBranches_eq_map]

theorem connective_blank (formula : Formula) : formula.blank.connective = formula.connective := by
  cases formula <;> rfl

/-- Lowering the blank formula gives the blank parts. -/
def LowersBlank (scope : Scope) (formula : Formula) : Prop :=
  ∀ names parts, formula.parts scope names = .ok parts →
    formula.blank.parts scope names = .ok (parts.map Expr.blank)

theorem LowersBlank.toExpr {formula : Formula} (hformula : formula.LowersBlank scope)
    {name : String} {part : Expr} (h : formula.toExpr scope name = .ok part) :
    formula.blank.toExpr scope name = .ok part.blank := by
  rw [toExpr_eq_map_parts] at h ⊢
  obtain ⟨parts, hparts, rfl⟩ := map_eq_ok.1 h
  rw [length_blank, connective_blank, Expr.blank_ofParts]
  exact map_eq_ok.2 ⟨_, hformula _ _ hparts, rfl⟩

theorem branchExprs_blank {names : Nat → String} {members : List Formula} {parts : List Expr}
    (hmembers : ∀ member ∈ members, member.LowersBlank scope)
    (h : branchExprs scope names 0 members = .ok parts) :
    branchExprs scope names 0 (blankBranches members) = .ok (parts.map Expr.blank) := by
  rw [branchExprs_eq_mapM] at h ⊢
  rw [blankBranches_eq_map, List.zipIdx_map]
  refine mapM_map_eq_ok ?_ h
  intro member hmember part hpart
  exact (hmembers member.1 (List.fst_mem_of_mem_zipIdx hmember)).toExpr hpart

theorem entryExpr_blank {name : String} {entry : Entry} {part : Expr}
    (hmembers : ∀ connective members, entry = .group connective members →
      ∀ member ∈ members, member.LowersBlank scope)
    (h : entryExpr scope name entry = .ok part) :
    entryExpr scope name (blankEntry entry) = .ok part.blank := by
  cases entry with
  | column identifier test =>
      rw [entryExpr] at h
      rw [blankEntry, entryExpr]
      split at h
      · next column hcolumn => exact Expr.ofTest_blank h
      · simp at h
  | group connective members =>
      rw [entryExpr] at h
      obtain ⟨parts, hparts, rfl⟩ := map_eq_ok.1 h
      rw [blankEntry, entryExpr, blankBranches_eq_map, List.length_map, ← blankBranches_eq_map,
        Expr.blank_ofParts]
      exact map_eq_ok.2 ⟨_, branchExprs_blank (hmembers _ _ rfl) hparts, rfl⟩

theorem lowersBlank (formula : Formula) : formula.LowersBlank scope := by
  induction formula using Formula.induction with
  | conjunction entries ih =>
      intro names parts h
      rw [Formula.parts, entryExprs_eq_mapM] at h
      rw [blank, Formula.parts, entryExprs_eq_mapM, blankEntries_eq_map, List.zipIdx_map]
      refine mapM_map_eq_ok ?_ h
      intro entry hentry part hpart
      refine entryExpr_blank ?_ hpart
      intro connective members hgroup
      exact ih connective members (hgroup ▸ List.fst_mem_of_mem_zipIdx hentry)
  | disjunction branches ih =>
      intro names parts h
      exact branchExprs_blank ih h

end Formula

/-! ### Restrictions -/

namespace Restriction

def blank (restriction : Restriction) : Restriction :=
  ⟨restriction.connective, restriction.parts.map Expr.blank⟩

variable (restriction : Restriction)

theorem sql_blank : restriction.blank.sql = restriction.sql := by
  rw [blank, sql, sql, ← Expr.blankParts_eq_map, Expr.partsSql_blank]

theorem isEmpty_blank : restriction.blank.isEmpty = restriction.isEmpty := by
  simp [blank, isEmpty]

theorem slots_blank :
    restriction.blank.arguments.map Argument.slot = restriction.arguments.map Argument.slot := by
  rw [blank, arguments, arguments, ← Expr.blankParts_eq_map, ← Expr.partsArguments_eq_flatMap,
    ← Expr.partsArguments_eq_flatMap, Expr.partsSlots_blank]

end Restriction

theorem Filter.restriction_blank {wildcards : Wildcards} {scope : Scope} {space : String}
    {filter : Filter} {restriction : Restriction}
    (h : filter.restriction wildcards scope space = .ok restriction) :
    filter.blank.restriction .exact scope space = .ok restriction.blank := by
  obtain ⟨formula, hformula, h⟩ := bind_eq_ok.1 h
  refine bind_eq_ok.2 ⟨formula.blank, Formula.ofFilter_blank hformula, ?_⟩
  rw [Formula.restriction_eq_map_parts] at h ⊢
  obtain ⟨parts, hparts, rfl⟩ := map_eq_ok.1 h
  rw [Formula.connective_blank]
  exact map_eq_ok.2 ⟨_, Formula.lowersBlank formula _ _ hparts, rfl⟩

/-! ### Statements -/

def JoinRequest.blank (request : JoinRequest) : JoinRequest :=
  { request with condition := request.condition.map Filter.blank }

/-- Two requests with the same blank differ in the values of their filters only. -/
def Request.blank (request : Request) : Request :=
  { request with
    filter := request.filter.map Filter.blank
    joins := request.joins.map JoinRequest.blank }

def Join.blank (join : Join) : Join := { join with condition := join.condition.blank }

def Select.blank (select : Select) : Select :=
  { select with filter := select.filter.blank, joins := select.joins.map Join.blank }

namespace Assembler

/-- The assembler without wildcards. -/
def exact (assembler : Assembler) : Assembler := { assembler with wildcards := .exact }

variable {assembler : Assembler} {scope : Scope}

theorem declareJoins_blank (scope : Scope) (joins : List JoinRequest) :
    declareJoins scope (joins.map JoinRequest.blank) = declareJoins scope joins := by
  induction joins generalizing scope with
  | nil => rfl
  | cons join joins ih =>
      rw [List.map_cons, declareJoins, declareJoins]
      simp only [ih]
      rfl

theorem filterRestriction_blank {filter : Option Filter} {restriction : Restriction}
    (h : assembler.filterRestriction scope filter = .ok restriction) :
    assembler.exact.filterRestriction scope (filter.map Filter.blank) = .ok restriction.blank := by
  cases filter with
  | none =>
      obtain rfl := Except.ok.inj h
      rfl
  | some filter => exact mapError_eq_ok.2 (Filter.restriction_blank (mapError_eq_ok.1 h))

theorem joinClause_blank {ordinal : Nat} {request : JoinRequest} {join : Join}
    (h : assembler.joinClause scope ordinal request = .ok join) :
    assembler.exact.joinClause scope ordinal request.blank = .ok join.blank := by
  obtain ⟨hpath, condition, hcondition, rfl⟩ := joinClause_eq_ok.1 h
  refine joinClause_eq_ok.2 ⟨hpath, condition.blank, ?_, rfl⟩
  obtain ⟨kind, table, givenAlias, filter⟩ := request
  cases filter with
  | none =>
      obtain rfl := Except.ok.inj hcondition
      rfl
  | some filter => exact mapError_eq_ok.2 (Filter.restriction_blank (mapError_eq_ok.1 hcondition))

theorem joinClauses_blank {requests : List JoinRequest} {joins : List Join}
    (h : assembler.joinClauses scope 0 requests = .ok joins) :
    assembler.exact.joinClauses scope 0 (requests.map JoinRequest.blank) =
      .ok (joins.map Join.blank) := by
  rw [joinClauses_eq_mapM] at h ⊢
  rw [List.zipIdx_map]
  refine mapM_map_eq_ok ?_ h
  intro request _ join hjoin
  exact joinClause_blank hjoin

theorem assemble_blank {request : Request} {select : Select}
    (h : assembler.assemble request = .ok select) :
    assembler.exact.assemble request.blank = .ok select.blank := by
  obtain ⟨main, scope, hstages⟩ := assemble_eq_ok.1 h
  refine assemble_eq_ok.2 ⟨main, scope, ?_⟩
  exact {
    opened := hstages.opened
    declared := (declareJoins_blank main request.joins).trans hstages.declared
    columns := hstages.columns
    filter := filterRestriction_blank hstages.filter
    order := by
      have hjoined : request.blank.isJoined = request.isJoined := by
        simp [Request.isJoined, Request.blank]
      rw [hjoined]
      exact hstages.order
    group := hstages.group
    joins := joinClauses_blank hstages.joins
    table := hstages.table
    aliasName := hstages.aliasName
    dialect := hstages.dialect
    window := hstages.window
  }

end Assembler

/-! ### Texts and parameters -/

/-- The text and the parameters of a query, without their values. -/
def Query.outline (query : Query) : String × List (String × Bool) :=
  (query.sql, query.bindings.entries.map Argument.slot)

theorem Join.sql_blank (join : Join) : join.blank.sql = join.sql := by
  simp only [sql, conditionSql, blank, Restriction.sql_blank, Restriction.isEmpty_blank]

namespace Select

theorem bodySql_blank (select : Select) : select.blank.bodySql = select.bodySql := by
  have hjoins : (select.joins.map Join.blank).map Join.sql = select.joins.map Join.sql := by
    rw [List.map_map]
    exact List.map_congr_left fun join _ => join.sql_blank
  simp only [bodySql, whereSql, blank, hjoins, Restriction.sql_blank, Restriction.isEmpty_blank]

theorem windowedSql_blank (select : Select) (window : Window) :
    select.blank.windowedSql window = select.windowedSql window := by
  simp only [windowedSql, bodySql_blank]
  rfl

theorem countingSql_blank (select : Select) : select.blank.countingSql = select.countingSql := by
  simp only [countingSql, bodySql_blank]
  rfl

theorem slots_blank (select : Select) :
    (select.blank.filter.arguments ++ select.blank.joinArguments).map Argument.slot =
      (select.filter.arguments ++ select.joinArguments).map Argument.slot := by
  have hjoins : select.blank.joinArguments.map Argument.slot =
      select.joinArguments.map Argument.slot := by
    simp only [joinArguments, blank, List.map_flatMap, List.flatMap_map]
    exact List.flatMap_congr fun join _ => join.condition.slots_blank
  rw [List.map_append, List.map_append, hjoins, blank, Restriction.slots_blank]

/-- Checked statements with the same blank give the same queries, but for the values. -/
theorem outline_queries {scope scope' : Scope} {select select' : Select}
    (hchecked : select.IsChecked scope) (hchecked' : select'.IsChecked scope')
    (hblank : select.blank = select'.blank) :
    select.queries.map Query.outline = select'.queries.map Query.outline := by
  have hwindowed : ∀ window, select.windowedSql window = select'.windowedSql window := by
    intro window
    rw [← windowedSql_blank, hblank, windowedSql_blank]
  have hcounting : select.countingSql = select'.countingSql := by
    rw [← countingSql_blank, hblank, countingSql_blank]
  have hslots : select.bindings.entries.map Argument.slot =
      select'.bindings.entries.map Argument.slot := by
    rw [hchecked.entries_bindings, hchecked'.entries_bindings, ← slots_blank, hblank, slots_blank]
  have hwindow : select.window = select'.window := congrArg (fun select => select.window) hblank
  simp only [queries, query, firstRowQuery, countingQuery, queryOf, sql, List.map_cons,
    List.map_nil, Query.outline, hwindowed, hcounting, hslots, hwindow]

end Select

theorem Filter.outline_standalone {aliasName : String} {filter filter' : Filter}
    {restriction restriction' : Restriction} (hblank : filter.blank = filter'.blank)
    (h : filter.standalone aliasName = .ok restriction)
    (h' : filter'.standalone aliasName = .ok restriction') :
    restriction.sql = restriction'.sql ∧
      restriction.bindings.entries.map Argument.slot =
        restriction'.bindings.entries.map Argument.slot := by
  obtain ⟨-, hrestriction⟩ := standalone_eq_ok h
  obtain ⟨-, hrestriction'⟩ := standalone_eq_ok h'
  have hrestrictions := restriction_blank hrestriction
  rw [hblank, restriction_blank hrestriction'] at hrestrictions
  have hequal : restriction'.blank = restriction.blank := Except.ok.inj hrestrictions
  constructor
  · rw [← Restriction.sql_blank, ← hequal, Restriction.sql_blank]
  · rw [(placed_of_restriction hrestriction).entries_bindings,
      (placed_of_restriction hrestriction').entries_bindings, ← Restriction.slots_blank, ← hequal,
      Restriction.slots_blank]

/-- Requests that differ only in the values of their filters give the same texts, and the same
parameters in the same order, whatever the wildcards; and so do two such filters on their own. -/
theorem outline_independent_of_values :
    (∀ (assembler : Assembler) (wildcards : Wildcards) (request request' : Request)
      (select select' : Select), request.blank = request'.blank →
        assembler.assemble request = .ok select →
        { assembler with wildcards := wildcards }.assemble request' = .ok select' →
          select.queries.map Query.outline = select'.queries.map Query.outline) ∧
    ∀ (aliasName : String) (filter filter' : Filter) (restriction restriction' : Restriction),
      filter.blank = filter'.blank → filter.standalone aliasName = .ok restriction →
        filter'.standalone aliasName = .ok restriction' →
          restriction.sql = restriction'.sql ∧
            restriction.bindings.entries.map Argument.slot =
              restriction'.bindings.entries.map Argument.slot := by
  refine ⟨?_, fun _ _ _ _ _ hblank h h' => Filter.outline_standalone hblank h h'⟩
  intro assembler wildcards request request' select select' hrequest h h'
  obtain ⟨main, scope, hstages⟩ := Assembler.assemble_eq_ok.1 h
  obtain ⟨main', scope', hstages'⟩ := Assembler.assemble_eq_ok.1 h'
  have hselect := Assembler.assemble_blank h
  have hselect' := Assembler.assemble_blank h'
  rw [hrequest] at hselect
  exact Select.outline_queries hstages.isChecked hstages'.isChecked
    (Except.ok.inj (hselect.symm.trans hselect'))

theorem outline_independent_of_values_members :
    let filter := fun values => Filter.object
      [("id", .object [("$in", .list (values.map Filter.scalar))]),
        ("age", .object [("$gtCol", .scalar (.text "limit"))])]
    let request := fun values => { Request.empty with
      select := ["*"], filter := some (filter values) }
    let values : List Scalar := [.int 1]
    let values' : List Scalar := [.null, .text "x' OR 1"]
    ∃ select select' restriction restriction',
      (Assembler.ofTable "users").assemble (request values) = .ok select ∧
      (Assembler.ofTable "users").assemble (request values') = .ok select' ∧
      (filter values).standalone "users" = .ok restriction ∧
      (filter values').standalone "users" = .ok restriction' ∧
      select.queries.map Query.outline = select'.queries.map Query.outline ∧
      restriction.sql = restriction'.sql := by
  intro filter request values values'
  obtain ⟨select, hselect⟩ : ∃ select,
      (Assembler.ofTable "users").assemble (request values) = .ok select := ⟨_, by cbv⟩
  obtain ⟨select', hselect'⟩ : ∃ select',
      (Assembler.ofTable "users").assemble (request values') = .ok select' := ⟨_, by cbv⟩
  obtain ⟨restriction, hrestriction⟩ : ∃ restriction,
      (filter values).standalone "users" = .ok restriction := ⟨_, by cbv⟩
  obtain ⟨restriction', hrestriction'⟩ : ∃ restriction',
      (filter values').standalone "users" = .ok restriction' := ⟨_, by cbv⟩
  have hrequest : (request values).blank = (request values').blank := rfl
  have hfilter : (filter values).blank = (filter values').blank := rfl
  exact ⟨select, select', restriction, restriction', hselect, hselect', hrestriction, hrestriction',
    outline_independent_of_values.1 _ .anywhere _ _ _ _ hrequest hselect hselect',
    (outline_independent_of_values.2 _ _ _ _ _ hfilter hrestriction hrestriction').1⟩

end FilterSql
