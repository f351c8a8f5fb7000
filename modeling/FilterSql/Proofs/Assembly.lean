import FilterSql.Assembler
import FilterSql.Proofs.Placement

/-! What a successful assembly went through. A statement is given only when every stage succeeded in
the scope of all declared joins, so every name in it has passed a reader and every condition in it
is the lowering of a filter. -/

namespace FilterSql

/-- The stages of assembling. The main scope knows the main table only, the other one also the
joins. -/
structure Assembler.Stages (assembler : Assembler) (request : Request) (main scope : Scope)
    (select : Select) : Prop where
  opened : assembler.mainScope = .ok main
  declared : declareJoins main request.joins = .ok scope
  columns : selectColumns scope request.select = .ok select.columns
  filter : assembler.filterRestriction scope request.filter = .ok select.filter
  order : request.order.mapM (orderTerm scope request.isJoined select.columns) = .ok select.order
  group : groupColumns scope select.order request.group = .ok select.group
  joins : assembler.joinClauses scope 0 request.joins = .ok select.joins
  table : select.table = assembler.table
  aliasName : select.aliasName = assembler.aliasName
  dialect : select.dialect = assembler.dialect
  window : select.window = request.window

namespace Assembler

theorem assemble_eq_ok {assembler : Assembler} {request : Request} {select : Select} :
    assembler.assemble request = .ok select ↔
      ∃ main scope, assembler.Stages request main scope select := by
  constructor
  · intro h
    obtain ⟨main, hmain, h⟩ := bind_eq_ok.1 h
    obtain ⟨scope, hdeclared, h⟩ := bind_eq_ok.1 h
    obtain ⟨columns, hcolumns, h⟩ := bind_eq_ok.1 h
    obtain ⟨filter, hfilter, h⟩ := bind_eq_ok.1 h
    obtain ⟨order, horder, h⟩ := bind_eq_ok.1 h
    obtain ⟨group, hgroup, h⟩ := bind_eq_ok.1 h
    obtain ⟨joins, hjoins, h⟩ := bind_eq_ok.1 h
    obtain rfl := pure_eq_ok.1 h
    exact ⟨main, scope, hmain, hdeclared, hcolumns, hfilter, horder, hgroup, hjoins, rfl, rfl, rfl,
      rfl⟩
  · rintro ⟨main, scope, h⟩
    obtain ⟨table, aliasName, dialect, columns, filter, order, group, joins, window⟩ := select
    obtain ⟨hmain, hdeclared, hcolumns, hfilter, horder, hgroup, hjoins, rfl, rfl, rfl, rfl⟩ := h
    refine bind_eq_ok.2 ⟨main, hmain, bind_eq_ok.2 ⟨scope, hdeclared, ?_⟩⟩
    refine bind_eq_ok.2 ⟨columns, hcolumns, bind_eq_ok.2 ⟨filter, hfilter, ?_⟩⟩
    refine bind_eq_ok.2 ⟨order, horder, bind_eq_ok.2 ⟨group, hgroup, ?_⟩⟩
    exact bind_eq_ok.2 ⟨joins, hjoins, rfl⟩

end Assembler

/-- The text passes as a dotted path. -/
def IsPath (text : String) : Prop := ∃ segments, Identifier.path text = .ok segments

theorem IsPath.madeOf {text : String} (h : IsPath text) : MadeOf isPathChar text := by
  obtain ⟨segments, hpath⟩ := h
  obtain ⟨-, hwords, rfl⟩ := Identifier.path_eq_ok hpath
  exact .intercalate (by decide) fun segment hsegment => (hwords segment hsegment).isPath

/-! ### Names -/

theorem Scope.mem_insertAlias {aliasName other : String} {aliases : List String} :
    other ∈ insertAlias aliasName aliases ↔ other = aliasName ∨ other ∈ aliases := by
  induction aliases with
  | nil => simp [insertAlias]
  | cons first aliases ih =>
      unfold insertAlias
      split
      · simp
      · rw [List.mem_cons, ih, List.mem_cons, or_left_comm]

namespace Scope

variable {scope scope' : Scope} {aliasName : String}

/-- The scope with one more alias. -/
def extend (scope : Scope) (aliasName : String) : Scope :=
  { scope with joins := insertAlias aliasName scope.joins }

/-- Only words are declared, and only a free one is added. -/
theorem declare_eq_ok {isFree : Bool} :
    scope.declare aliasName = .ok (isFree, scope') ↔
      IsWord aliasName ∧
        (scope.knows aliasName = true ∧ isFree = false ∧ scope' = scope ∨
          scope.knows aliasName = false ∧ isFree = true ∧ scope' = scope.extend aliasName) := by
  by_cases hword : IsWord aliasName
  · rw [declare, Identifier.word_of_isWord hword]
    cases hknown : scope.knows aliasName <;> simp [hword, hknown, extend, eq_comm]
  · refine ⟨fun h => absurd ?_ hword, fun h => absurd h.1 hword⟩
    unfold declare at h
    split at h
    · simp at h
    · next hread => exact (Identifier.word_eq_ok hread).2

theorem IsNamed.extend (h : scope.IsNamed) (haliasName : IsWord aliasName) :
    (scope.extend aliasName).IsNamed := by
  refine ⟨h.main, fun other hother => ?_, h.active⟩
  rcases mem_insertAlias.1 hother with rfl | hother
  · exact haliasName
  · exact h.joins other hother

theorem IsNamed.declare {isFree : Bool} (h : scope.IsNamed)
    (hdeclare : scope.declare aliasName = .ok (isFree, scope')) :
    IsWord aliasName ∧ scope'.IsNamed := by
  obtain ⟨hword, ⟨-, -, rfl⟩ | ⟨-, -, rfl⟩⟩ := declare_eq_ok.1 hdeclare
  · exact ⟨hword, h⟩
  · exact ⟨hword, h.extend hword⟩

end Scope

namespace Assembler

variable {assembler : Assembler} {scope scope' : Scope}

theorem mainScope_eq_ok (h : assembler.mainScope = .ok scope) :
    IsPath assembler.table ∧
      IsWord assembler.aliasName ∧ scope = Scope.ofMain assembler.aliasName := by
  unfold mainScope at h
  split at h
  · simp at h
  · obtain ⟨segments, hpath, h⟩ := bind_eq_ok.1 h
    obtain ⟨aliasName, hword, h⟩ := bind_eq_ok.1 h
    obtain ⟨rfl, haliasName⟩ := Identifier.word_eq_ok (mapError_eq_ok.1 hword)
    exact ⟨⟨segments, mapError_eq_ok.1 hpath⟩, haliasName, (pure_eq_ok.1 h).symm⟩

theorem declareJoins_isNamed {joins : List JoinRequest} (hscope : scope.IsNamed)
    (h : declareJoins scope joins = .ok scope') :
    scope'.IsNamed ∧ ∀ join ∈ joins, IsWord join.aliasName := by
  induction joins generalizing scope with
  | nil =>
      obtain rfl := Except.ok.inj h
      exact ⟨hscope, by simp⟩
  | cons join joins ih =>
      obtain ⟨⟨isFree, next⟩, hdeclare, h⟩ := bind_eq_ok.1 h
      obtain ⟨haliasName, hnext⟩ := hscope.declare (mapError_eq_ok.1 hdeclare)
      cases isFree with
      | true =>
          obtain ⟨hscope', haliases⟩ := ih hnext h
          exact ⟨hscope', List.forall_mem_cons.2 ⟨haliasName, haliases⟩⟩
      | false => simp at h

theorem mapM_of_selectColumns {names : List String} {columns : List ColumnRef}
    (h : selectColumns scope names = .ok columns) :
    (names.mapM fun name => (scope.selected name).mapError (Fault.name .select)) = .ok columns := by
  unfold selectColumns at h
  split at h
  · simp at h
  · exact h

theorem exists_selected {names : List String} {columns : List ColumnRef}
    (h : selectColumns scope names = .ok columns) :
    ∀ column ∈ columns, ∃ name ∈ names, scope.selected name = .ok column := by
  intro column hcolumn
  obtain ⟨name, hname, hselected⟩ := (mem_iff_of_mapM (mapM_of_selectColumns h)).1 hcolumn
  exact ⟨name, hname, mapError_eq_ok.1 hselected⟩

theorem isNamed_of_selectColumns {names : List String} {columns : List ColumnRef}
    (howner : IsWord scope.owner) (h : selectColumns scope names = .ok columns) :
    ∀ column ∈ columns, column.IsNamed := by
  intro column hcolumn
  obtain ⟨name, -, hselected⟩ := exists_selected h column hcolumn
  exact Scope.isNamed_of_selected howner hselected

theorem column_of_orderTerm {mustBeSelected : Bool} {columns : List ColumnRef} {term : OrderTerm}
    {ordered : ColumnRef × Direction}
    (h : orderTerm scope mustBeSelected columns term = .ok ordered) :
    scope.column term.column = .ok ordered.1 := by
  obtain ⟨column, hcolumn, h⟩ := bind_eq_ok.1 h
  split at h
  · simp at h
  · obtain rfl := pure_eq_ok.1 h
    exact mapError_eq_ok.1 hcolumn

theorem gives_of_orderTerm {mustBeSelected : Bool} {columns : List ColumnRef} {term : OrderTerm}
    {ordered : ColumnRef × Direction}
    (h : orderTerm scope mustBeSelected columns term = .ok ordered) : scope.Gives ordered.1 :=
  ⟨term.column, column_of_orderTerm h⟩

theorem mapM_of_groupColumns {order : List (ColumnRef × Direction)} {names : List String}
    {group : List ColumnRef} (h : groupColumns scope order (some names) = .ok group) :
    (names.mapM fun name => (scope.column name).mapError (Fault.name .group)) = .ok group := by
  obtain ⟨columns, hcolumns, h⟩ := bind_eq_ok.1 h
  split at h
  · simp at h
  · obtain rfl := pure_eq_ok.1 h
    exact hcolumns

theorem gives_of_groupColumns {order : List (ColumnRef × Direction)}
    {names : Option (List String)} {group : List ColumnRef}
    (h : groupColumns scope order names = .ok group) : ∀ column ∈ group, scope.Gives column := by
  cases names with
  | none =>
      obtain rfl := Except.ok.inj h
      simp
  | some names =>
      intro column hcolumn
      obtain ⟨name, -, hname⟩ := (mem_iff_of_mapM (mapM_of_groupColumns h)).1 hcolumn
      exact ⟨name, mapError_eq_ok.1 hname⟩

end Assembler

/-! ### Conditions -/

theorem Restriction.placed_none (scope : Scope) (space : String) :
    Restriction.none.Placed scope space := by
  simp [Restriction.Placed, Restriction.none]

theorem Filter.placed_of_restriction {wildcards : Wildcards} {scope : Scope} {space : String}
    {filter : Filter} {restriction : Restriction}
    (h : filter.restriction wildcards scope space = .ok restriction) :
    restriction.Placed scope space := by
  obtain ⟨formula, -, h⟩ := bind_eq_ok.1 h
  exact Formula.placed_of_restriction h

theorem Filter.standalone_eq_ok {aliasName : String} {filter : Filter} {restriction : Restriction}
    (h : filter.standalone aliasName = .ok restriction) :
    IsWord aliasName ∧
      filter.restriction .anywhere (Scope.ofMain aliasName) "" = .ok restriction := by
  obtain ⟨word, hword, hrestriction⟩ := bind_eq_ok.1 h
  obtain ⟨rfl, haliasName⟩ := Identifier.word_eq_ok (mapError_eq_ok.1 hword)
  exact ⟨haliasName, mapError_eq_ok.1 hrestriction⟩

structure Join.IsChecked (scope : Scope) (ordinal : Nat) (join : Join) : Prop where
  table : IsPath join.table
  aliasName : IsWord join.aliasName
  condition : join.condition.Placed (scope.activate join.aliasName) (Assembler.joinSpace ordinal)

/-- All names of the statement have passed a reader, and its conditions are placed in the scope. -/
structure Select.IsChecked (scope : Scope) (select : Select) : Prop where
  named : scope.IsNamed
  table : IsPath select.table
  aliasName : IsWord select.aliasName
  columns : ∀ column ∈ select.columns, column.IsNamed
  filter : select.filter.Placed scope ""
  order : ∀ term ∈ select.order, term.1.IsSingle
  group : ∀ column ∈ select.group, column.IsSingle
  joins : ∀ join ∈ select.joins.zipIdx, join.1.IsChecked scope join.2

namespace Assembler

variable {assembler : Assembler} {scope : Scope}

theorem placed_of_filterRestriction {filter : Option Filter} {restriction : Restriction}
    (h : assembler.filterRestriction scope filter = .ok restriction) :
    restriction.Placed scope "" := by
  cases filter with
  | none =>
      obtain rfl := Except.ok.inj h
      exact Restriction.placed_none scope ""
  | some filter => exact Filter.placed_of_restriction (mapError_eq_ok.1 h)

/-- The condition of a join, read with the joined table as the owner of undotted names. -/
def joinCondition (assembler : Assembler) (scope : Scope) (ordinal : Nat) (request : JoinRequest) :
    Except Fault Restriction :=
  match request.condition with
  | none => .ok .none
  | some filter =>
    (filter.restriction assembler.wildcards (scope.activate request.aliasName)
      (joinSpace ordinal)).mapError (Fault.filter (.join request.aliasName))

theorem joinClause_eq_bind {ordinal : Nat} {request : JoinRequest} :
    assembler.joinClause scope ordinal request = do
      let _ ← (Identifier.path request.table).mapError (Fault.identifier (.join request.aliasName))
      let condition ← assembler.joinCondition scope ordinal request
      return ⟨request.kind, request.table, request.aliasName, condition⟩ := by
  rw [joinClause, joinCondition]
  cases request.condition <;> rfl

theorem joinClause_eq_ok {ordinal : Nat} {request : JoinRequest} {join : Join} :
    assembler.joinClause scope ordinal request = .ok join ↔
      IsPath request.table ∧ ∃ condition,
        assembler.joinCondition scope ordinal request = .ok condition ∧
          join = ⟨request.kind, request.table, request.aliasName, condition⟩ := by
  rw [joinClause_eq_bind]
  constructor
  · intro h
    obtain ⟨segments, hpath, h⟩ := bind_eq_ok.1 h
    obtain ⟨condition, hcondition, h⟩ := bind_eq_ok.1 h
    exact ⟨⟨segments, mapError_eq_ok.1 hpath⟩, condition, hcondition, (pure_eq_ok.1 h).symm⟩
  · rintro ⟨⟨segments, hpath⟩, condition, hcondition, rfl⟩
    exact bind_eq_ok.2 ⟨segments, mapError_eq_ok.2 hpath, bind_eq_ok.2 ⟨condition, hcondition, rfl⟩⟩

theorem isChecked_of_joinClause {ordinal : Nat} {request : JoinRequest} {join : Join}
    (haliasName : IsWord request.aliasName)
    (h : assembler.joinClause scope ordinal request = .ok join) : join.IsChecked scope ordinal := by
  obtain ⟨hpath, condition, hcondition, rfl⟩ := joinClause_eq_ok.1 h
  refine ⟨hpath, haliasName, ?_⟩
  unfold joinCondition at hcondition
  split at hcondition
  · obtain rfl := Except.ok.inj hcondition
    exact Restriction.placed_none _ _
  · exact Filter.placed_of_restriction (mapError_eq_ok.1 hcondition)

theorem joinClauses_eq_mapM (assembler : Assembler) (scope : Scope) (ordinal : Nat)
    (requests : List JoinRequest) :
    assembler.joinClauses scope ordinal requests =
      (requests.zipIdx ordinal).mapM fun request =>
        assembler.joinClause scope request.2 request.1 := by
  induction requests generalizing ordinal with
  | nil => rfl
  | cons request requests ih => rw [joinClauses, ih, List.zipIdx_cons, List.mapM_cons]

theorem isChecked_of_joinClauses {requests : List JoinRequest} {joins : List Join}
    (haliases : ∀ request ∈ requests, IsWord request.aliasName)
    (h : assembler.joinClauses scope 0 requests = .ok joins) :
    ∀ join ∈ joins.zipIdx, join.1.IsChecked scope join.2 := by
  rw [joinClauses_eq_mapM, mapM_eq_ok] at h
  intro join hjoin
  obtain ⟨request, hrequest, hclause⟩ := exists_mem_of_forall₂_zipIdx h join hjoin
  exact isChecked_of_joinClause (haliases request hrequest) hclause

theorem joinConditions_of_joinClauses {requests : List JoinRequest} {joins : List Join}
    (h : assembler.joinClauses scope 0 requests = .ok joins) :
    (requests.zipIdx.mapM fun request => assembler.joinCondition scope request.2 request.1) =
      .ok (joins.map Join.condition) := by
  rw [joinClauses_eq_mapM, mapM_eq_ok] at h
  rw [mapM_eq_ok, List.forall₂_map_right_iff]
  refine h.imp ?_
  intro request join hjoin
  obtain ⟨-, condition, hcondition, rfl⟩ := joinClause_eq_ok.1 hjoin
  exact hcondition

theorem Stages.isChecked {request : Request} {main : Scope} {select : Select}
    (h : assembler.Stages request main scope select) : select.IsChecked scope := by
  obtain ⟨htable, haliasName, rfl⟩ := mainScope_eq_ok h.opened
  have hmain : (Scope.ofMain assembler.aliasName).IsNamed :=
    ⟨haliasName, by simp [Scope.ofMain], by simp [Scope.ofMain]⟩
  obtain ⟨hscope, haliases⟩ := declareJoins_isNamed hmain h.declared
  exact {
    named := hscope
    table := h.table ▸ htable
    aliasName := h.aliasName ▸ haliasName
    columns := isNamed_of_selectColumns hscope.owner h.columns
    filter := placed_of_filterRestriction h.filter
    order := by
      intro term hterm
      obtain ⟨name, -, hname⟩ := exists_mem_of_forall₂ (mapM_eq_ok.1 h.order) hterm
      exact (gives_of_orderTerm hname).isSingle hscope.owner
    group := fun column hcolumn =>
      (gives_of_groupColumns h.group column hcolumn).isSingle hscope.owner
    joins := isChecked_of_joinClauses haliases h.joins
  }

end Assembler

end FilterSql
