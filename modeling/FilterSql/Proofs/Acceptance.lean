import FilterSql.Proofs.Suitability
import FilterSql.Proofs.Ownership

/-! Which requests are accepted, and what is reported of the others. A request is looked at in seven
stages: table, aliases, select list, filter, order, group and joins. Every clause is read in the
scope of all declared aliases, so what a stage asks does not depend on what the ones before it gave,
and one order of places ranks the faults of all of them. -/

namespace FilterSql

theorem isWord_iff {text : String} : IsWord text ↔ ∃ name, Identifier.word text = .ok name :=
  ⟨fun h => ⟨text, Identifier.word_of_isWord h⟩, fun ⟨_, h⟩ => (Identifier.word_eq_ok h).2⟩

/-- The filter is read and lowered. -/
def Filter.Restricts (filter : Filter) (wildcards : Wildcards) (scope : Scope) (space : String) :
    Prop := ∃ restriction, filter.restriction wildcards scope space = .ok restriction

namespace Scope

/-- The select list makes the column available, by itself or with all columns of its table. -/
def Offers (scope : Scope) (names : List String) (column : ColumnRef) : Prop :=
  ∃ name ∈ names, ∃ selected, scope.selected name = .ok selected ∧
    (selected = column ∨ selected = .all column.owner)

/-- The term names a column, which is selected if tables are joined. -/
def Orders (scope : Scope) (request : Request) (term : OrderTerm) : Prop :=
  scope.Names term.column ∧ ∀ column, scope.column term.column = .ok column →
    request.joins ≠ [] → scope.Offers request.select column

/-- The names denote columns, and those of the order terms are among them. -/
def Groups (scope : Scope) (terms : List OrderTerm) (names : List String) : Prop :=
  (∀ name ∈ names, scope.Names name) ∧
    ∀ term ∈ terms, ∀ column, scope.column term.column = .ok column →
      ∃ name ∈ names, scope.column name = .ok column

end Scope

namespace Assembler

/-- The scope that knows the main alias and those of all joins. -/
def fullScope (assembler : Assembler) (request : Request) : Scope :=
  request.joins.foldl (fun scope join => scope.extend join.aliasName)
    (Scope.ofMain assembler.aliasName)

/-- The join names a table, and its condition restricts, read under its alias. -/
def Joins (assembler : Assembler) (scope : Scope) (ordinal : Nat) (join : JoinRequest) : Prop :=
  IsPath join.table ∧ ∀ filter, join.condition = some filter →
    filter.Restricts assembler.wildcards (scope.activate join.aliasName) (joinSpace ordinal)

/-- What is asked of a request, stage by stage. -/
@[mk_iff]
structure Accepts (assembler : Assembler) (request : Request) : Prop where
  table : assembler.table ≠ "" ∧ IsPath assembler.table ∧ IsWord assembler.aliasName
  aliases : (∀ join ∈ request.joins, IsWord join.aliasName) ∧
    (assembler.aliasName :: request.joins.map JoinRequest.aliasName).Nodup
  select : request.select ≠ [] ∧
    ∀ name ∈ request.select, ∃ column, (assembler.fullScope request).selected name = .ok column
  filter : ∀ filter, request.filter = some filter →
    filter.Restricts assembler.wildcards (assembler.fullScope request) ""
  order : ∀ term ∈ request.order, (assembler.fullScope request).Orders request term
  group : ∀ names, request.group = some names →
    (assembler.fullScope request).Groups request.order names
  joins : ∀ (index : Nat) (join : JoinRequest), request.joins[index]? = some join →
    assembler.Joins (assembler.fullScope request) index join

/-- What is wrong with a request, and where. A place starts with the stage. -/
inductive FaultAt (assembler : Assembler) (request : Request) : Findings Fault
  | emptyTable (htable : assembler.table = "") :
      FaultAt assembler request [0, 0] (.request .emptyTable)
  | table {fault : IdentifierFault} (htable : Identifier.path assembler.table = .error fault) :
      FaultAt assembler request [0, 1] (.identifier .table fault)
  | mainAlias {fault : IdentifierFault}
      (haliasName : Identifier.word assembler.aliasName = .error fault) :
      FaultAt assembler request [0, 2] (.identifier .table fault)
  | joinAlias {index : Nat} {join : JoinRequest} {fault : IdentifierFault}
      (hjoin : request.joins[index]? = some join)
      (haliasName : Identifier.word join.aliasName = .error fault) :
      FaultAt assembler request [1, index, 0] (.identifier (.join join.aliasName) fault)
  | takenAlias {index : Nat} {join : JoinRequest} (hjoin : request.joins[index]? = some join)
      (htaken : join.aliasName = assembler.aliasName ∨
        join.aliasName ∈ (request.joins.take index).map JoinRequest.aliasName) :
      FaultAt assembler request [1, index, 1] (.request (.duplicateAlias join.aliasName))
  | emptySelect (hselect : request.select = []) :
      FaultAt assembler request [2, 0] (.request .emptySelect)
  | select {index : Nat} {name : String} {fault : NameFault}
      (hname : request.select[index]? = some name)
      (hselected : (assembler.fullScope request).selected name = .error fault) :
      FaultAt assembler request [2, 1, index] (.name .select fault)
  | filter {filter : Filter} {fault : FilterFault} (hfilter : request.filter = some filter)
      (hrestriction : filter.restriction assembler.wildcards (assembler.fullScope request) "" =
        .error fault) :
      FaultAt assembler request [3] (.filter .filter fault)
  | order {index : Nat} {term : OrderTerm} {fault : NameFault}
      (hterm : request.order[index]? = some term)
      (hcolumn : (assembler.fullScope request).column term.column = .error fault) :
      FaultAt assembler request [4, index, 0] (.name .order fault)
  | unselected {index : Nat} {term : OrderTerm} {column : ColumnRef}
      (hterm : request.order[index]? = some term)
      (hcolumn : (assembler.fullScope request).column term.column = .ok column)
      (hjoins : request.joins ≠ [])
      (hunselected : ¬ (assembler.fullScope request).Offers request.select column) :
      FaultAt assembler request [4, index, 1] (.request (.uncoveredOrder column .select))
  | group {names : List String} {index : Nat} {name : String} {fault : NameFault}
      (hgroup : request.group = some names) (hname : names[index]? = some name)
      (hcolumn : (assembler.fullScope request).column name = .error fault) :
      FaultAt assembler request [5, 0, index] (.name .group fault)
  | ungrouped {names : List String} {index : Nat} {term : OrderTerm} {column : ColumnRef}
      (hgroup : request.group = some names) (hterm : request.order[index]? = some term)
      (hcolumn : (assembler.fullScope request).column term.column = .ok column)
      (hungrouped : ¬ ∃ name ∈ names, (assembler.fullScope request).column name = .ok column) :
      FaultAt assembler request [5, 1, index] (.request (.uncoveredOrder column .group))
  | joinTable {index : Nat} {join : JoinRequest} {fault : IdentifierFault}
      (hjoin : request.joins[index]? = some join)
      (htable : Identifier.path join.table = .error fault) :
      FaultAt assembler request [6, index, 0] (.identifier (.join join.aliasName) fault)
  | condition {index : Nat} {join : JoinRequest} {filter : Filter} {fault : FilterFault}
      (hjoin : request.joins[index]? = some join) (hcondition : join.condition = some filter)
      (hrestriction : filter.restriction assembler.wildcards
        ((assembler.fullScope request).activate join.aliasName) (joinSpace index) = .error fault) :
      FaultAt assembler request [6, index, 1] (.filter (.join join.aliasName) fault)

variable {assembler : Assembler} {request : Request}

/-! ### Table -/

theorem faultAt_table {place : List Nat} {fault : Fault} :
    Findings.inTurn
        [.ofCheck (assembler.table = "") (.request .emptyTable),
          .ofReader (Fault.identifier .table) (Identifier.path assembler.table),
          .ofReader (Fault.identifier .table) (Identifier.word assembler.aliasName)]
        place fault ↔
      (FaultAt assembler request).part 0 place fault := by
  constructor
  · rintro ⟨index, stage, inner, hstage, rfl, hfault⟩
    match index, hstage with
    | 0, rfl =>
        obtain ⟨rfl, htable, rfl⟩ := hfault
        exact .emptyTable htable
    | 1, rfl =>
        obtain ⟨rfl, found, htable, rfl⟩ := hfault
        exact .table htable
    | 2, rfl =>
        obtain ⟨rfl, found, haliasName, rfl⟩ := hfault
        exact .mainAlias haliasName
  · intro h
    cases h with
    | emptyTable htable => exact ⟨0, _, [], rfl, rfl, rfl, htable, rfl⟩
    | table htable => exact ⟨1, _, [], rfl, rfl, rfl, _, htable, rfl⟩
    | mainAlias haliasName => exact ⟨2, _, [], rfl, rfl, rfl, _, haliasName, rfl⟩

theorem judges_mainScope (assembler : Assembler) (request : Request) :
    ((FaultAt assembler request).part 0).Judges
      (assembler.table ≠ "" ∧ IsPath assembler.table ∧ IsWord assembler.aliasName)
      assembler.mainScope := by
  unfold mainScope
  refine (Findings.judges_ite Iff.rfl fun _ => ?_).congr Iff.rfl fun _ _ => faultAt_table
  refine (Findings.judges_ofReader _).bind fun _ _ => ?_
  rw [bind_pure_eq_map, isWord_iff]
  exact ((Findings.judges_ofReader _).map _).last

/-! ### Aliases -/

def declareJoin (scope : Scope) (join : JoinRequest) : Except Fault Scope := do
  let aliasName ←
    (Identifier.word join.aliasName).mapError (Fault.identifier (.join join.aliasName))
  if scope.knows aliasName then
    .error (.request (.duplicateAlias join.aliasName))
  else
    .ok (scope.extend aliasName)

/-- A declared alias stays, so the joins that are left are declared in a scope that knows it. -/
theorem declareJoins_cons {scope : Scope} {join : JoinRequest} {joins : List JoinRequest} :
    declareJoins scope (join :: joins) =
      declareJoin scope join >>= fun scope => declareJoins scope joins := by
  rw [declareJoins, declareJoin, Scope.declare]
  cases Identifier.word join.aliasName with
  | error fault => rfl
  | ok aliasName =>
      by_cases hknown : scope.knows aliasName = true
      · simp [hknown, Except.mapError, bind, Except.bind]
      · simp [hknown, Except.mapError, bind, Except.bind, Scope.extend]

theorem declareJoin_eq_ok {scope scope' : Scope} {join : JoinRequest}
    (h : declareJoin scope join = .ok scope') : scope' = scope.extend join.aliasName := by
  obtain ⟨aliasName, haliasName, h⟩ := bind_eq_ok.1 h
  obtain ⟨rfl, -⟩ := Identifier.word_eq_ok (mapError_eq_ok.1 haliasName)
  split at h
  · simp at h
  · exact (Except.ok.inj h).symm

theorem declareJoins_eq_foldl {scope scope' : Scope} {joins : List JoinRequest}
    (h : declareJoins scope joins = .ok scope') :
    scope' = joins.foldl (fun scope join => scope.extend join.aliasName) scope := by
  induction joins generalizing scope with
  | nil => exact (Except.ok.inj h).symm
  | cons join joins ih =>
      rw [declareJoins_cons] at h
      obtain ⟨next, hnext, h⟩ := bind_eq_ok.1 h
      obtain rfl := declareJoin_eq_ok hnext
      exact ih h

/-- What is wrong with the alias of a join when the scope knows the main alias and `earlier` holds
the joins before it. -/
def aliasFaults (scope : Scope) (earlier : List JoinRequest) (join : JoinRequest) :
    Findings Fault :=
  .inTurn
    [.ofReader (Fault.identifier (.join join.aliasName)) (Identifier.word join.aliasName),
      .ofCheck
        (scope.knows join.aliasName = true ∨
          join.aliasName ∈ earlier.map JoinRequest.aliasName)
        (.request (.duplicateAlias join.aliasName))]

theorem judges_declareJoin (scope : Scope) (join : JoinRequest) :
    (aliasFaults scope [] join).Judges
      (IsWord join.aliasName ∧ ¬ scope.knows join.aliasName = true) (declareJoin scope join) := by
  rw [isWord_iff]
  refine (Findings.judges_ofReader _).bind fun aliasName haliasName => ?_
  obtain ⟨rfl, -⟩ := Identifier.word_eq_ok (mapError_eq_ok.1 haliasName)
  have hcheck : scope.knows join.aliasName = true ↔
      scope.knows join.aliasName = true ∨
        join.aliasName ∈ ([] : List JoinRequest).map JoinRequest.aliasName := by simp
  exact ((Findings.judges_ofCheck hcheck).congr (not_congr hcheck.symm) fun _ _ => Iff.rfl).last

theorem aliasFaults_cons {scope : Scope} {first join : JoinRequest} {earlier : List JoinRequest} :
    aliasFaults scope (first :: earlier) join =
      aliasFaults (scope.extend first.aliasName) earlier join := by
  simp only [aliasFaults, List.map_cons, List.mem_cons, Scope.knows_extend, or_assoc]

/-- The joins one after the other, each with those before it. -/
def aliasStages (scope : Scope) (joins : List JoinRequest) : List (Findings Fault) :=
  joins.mapIdx fun index => aliasFaults scope (joins.take index)

theorem aliasStages_cons {scope : Scope} {join : JoinRequest} {joins : List JoinRequest} :
    aliasStages scope (join :: joins) =
      aliasFaults scope [] join :: aliasStages (scope.extend join.aliasName) joins := by
  rw [aliasStages, List.mapIdx_cons, aliasStages]
  congr 2
  funext index other
  exact aliasFaults_cons

theorem getElem?_aliasStages {scope : Scope} {joins : List JoinRequest} {index : Nat}
    {stage : Findings Fault} :
    (aliasStages scope joins)[index]? = some stage ↔
      ∃ join, joins[index]? = some join ∧ aliasFaults scope (joins.take index) join = stage := by
  rw [aliasStages, List.getElem?_mapIdx, Option.map_eq_some_iff]

theorem judges_declareJoins (scope : Scope) (joins : List JoinRequest) :
    (Findings.inTurn (aliasStages scope joins)).Judges
      ((∀ join ∈ joins, IsWord join.aliasName ∧ ¬ scope.knows join.aliasName = true) ∧
        (joins.map JoinRequest.aliasName).Nodup)
      (declareJoins scope joins) := by
  induction joins generalizing scope with
  | nil => exact (Findings.judges_inTurn_nil scope).congr (by simp) fun _ _ => Iff.rfl
  | cons join joins ih =>
      have hfresh : join.aliasName ∉ joins.map JoinRequest.aliasName ↔
          ∀ other ∈ joins, other.aliasName ≠ join.aliasName := by
        simp
      have hrest : ∀ next, declareJoin scope join = .ok next →
          (Findings.inTurn (aliasStages (scope.extend join.aliasName) joins)).Judges
            ((∀ other ∈ joins, IsWord other.aliasName ∧
                ¬ (scope.extend join.aliasName).knows other.aliasName = true) ∧
              (joins.map JoinRequest.aliasName).Nodup)
            (declareJoins next joins) := by
        intro next hnext
        rw [declareJoin_eq_ok hnext]
        exact ih _
      rw [declareJoins_cons, aliasStages_cons]
      refine ((judges_declareJoin scope join).bind hrest).congr ?_ fun _ _ => Iff.rfl
      simp only [Scope.knows_extend, not_or, List.forall_mem_cons, List.map_cons, List.nodup_cons,
        hfresh]
      constructor
      · rintro ⟨hjoin, hothers, hnodup⟩
        exact ⟨⟨hjoin, fun other hother => ⟨(hothers other hother).1, (hothers other hother).2.1⟩⟩,
          fun other hother => (hothers other hother).2.2, hnodup⟩
      · rintro ⟨⟨hjoin, hothers⟩, hdistinct, hnodup⟩
        exact ⟨hjoin, fun other hother => ⟨(hothers other hother).1, (hothers other hother).2,
          hdistinct other hother⟩, hnodup⟩

theorem faultAt_aliases {place : List Nat} {fault : Fault} :
    Findings.inTurn (aliasStages (Scope.ofMain assembler.aliasName) request.joins) place fault ↔
      (FaultAt assembler request).part 1 place fault := by
  constructor
  · rintro ⟨index, stage, inner, hstage, rfl, hfault⟩
    obtain ⟨join, hjoin, rfl⟩ := getElem?_aliasStages.1 hstage
    obtain ⟨index', stage, inner, hstage, rfl, hfault⟩ := hfault
    match index', hstage with
    | 0, rfl =>
        obtain ⟨rfl, found, haliasName, rfl⟩ := hfault
        exact .joinAlias hjoin haliasName
    | 1, rfl =>
        obtain ⟨rfl, htaken, rfl⟩ := hfault
        rw [Scope.knows_ofMain] at htaken
        exact .takenAlias hjoin htaken
  · intro h
    cases h with
    | joinAlias hjoin haliasName =>
        exact ⟨_, _, _, getElem?_aliasStages.2 ⟨_, hjoin, rfl⟩, rfl, 0, _, [], rfl, rfl, rfl, _,
          haliasName, rfl⟩
    | takenAlias hjoin htaken =>
        rw [← Scope.knows_ofMain] at htaken
        exact ⟨_, _, _, getElem?_aliasStages.2 ⟨_, hjoin, rfl⟩, rfl, 1, _, [], rfl, rfl, rfl,
          htaken, rfl⟩

theorem judges_aliases (assembler : Assembler) (request : Request) :
    ((FaultAt assembler request).part 1).Judges
      ((∀ join ∈ request.joins, IsWord join.aliasName) ∧
        (assembler.aliasName :: request.joins.map JoinRequest.aliasName).Nodup)
      (declareJoins (Scope.ofMain assembler.aliasName) request.joins) := by
  refine (judges_declareJoins _ _).congr ?_ fun _ _ => faultAt_aliases
  simp only [Scope.knows_ofMain, forall_and, List.nodup_cons, List.mem_map, not_exists, not_and,
    and_assoc]

/-! ### Select list -/

theorem faultAt_select {place : List Nat} {fault : Fault} :
    Findings.inTurn
        [.ofCheck (request.select = []) (.request .emptySelect),
          .within (fun name => .ofReader (Fault.name .select)
            ((assembler.fullScope request).selected name)) request.select]
        place fault ↔
      (FaultAt assembler request).part 2 place fault := by
  constructor
  · rintro ⟨index, stage, inner, hstage, rfl, hfault⟩
    match index, hstage with
    | 0, rfl =>
        obtain ⟨rfl, hselect, rfl⟩ := hfault
        exact .emptySelect hselect
    | 1, rfl =>
        obtain ⟨index, name, inner, hname, rfl, rfl, found, hselected, rfl⟩ := hfault
        exact .select hname hselected
  · intro h
    cases h with
    | emptySelect hselect => exact ⟨0, _, [], rfl, rfl, rfl, hselect, rfl⟩
    | select hname hselected =>
        exact ⟨1, _, _, rfl, rfl, _, _, [], hname, rfl, rfl, _, hselected, rfl⟩

theorem judges_selectColumns (assembler : Assembler) (request : Request) :
    ((FaultAt assembler request).part 2).Judges
      (request.select ≠ [] ∧ ∀ name ∈ request.select,
        ∃ column, (assembler.fullScope request).selected name = .ok column)
      (selectColumns (assembler.fullScope request) request.select) := by
  refine (Findings.judges_ite List.isEmpty_iff fun _ => ?_).congr Iff.rfl fun _ _ => faultAt_select
  exact (Findings.judges_mapM fun _ _ => Findings.judges_ofReader _).last

/-! ### Filter -/

theorem judges_filterRestriction (assembler : Assembler) (request : Request) :
    ((FaultAt assembler request).part 3).Judges
      (∀ filter, request.filter = some filter →
        filter.Restricts assembler.wildcards (assembler.fullScope request) "")
      (assembler.filterRestriction (assembler.fullScope request) request.filter) := by
  cases hfilter : request.filter with
  | none =>
      refine ⟨by simp, ?_⟩
      intro place fault h
      cases h with
      | filter hsome => simp [hfilter] at hsome
  | some filter =>
      refine (Findings.judges_ofReader (Fault.filter .filter)).congr
        (by simp [Filter.Restricts]) fun place fault => ?_
      constructor
      · rintro ⟨rfl, found, hrestriction, rfl⟩
        exact .filter hfilter hrestriction
      · intro h
        cases h with
        | filter hsome hrestriction =>
            obtain rfl := Option.some.inj (hfilter.symm.trans hsome)
            exact ⟨rfl, _, hrestriction, rfl⟩

/-! ### Order -/

theorem any_includes_iff {scope : Scope} {names : List String} {columns : List ColumnRef}
    (hcolumns : selectColumns scope names = .ok columns) {column : ColumnRef} :
    columns.any (·.includes column) = true ↔ scope.Offers names column := by
  simp only [List.any_eq_true, mem_iff_of_mapM (mapM_of_selectColumns hcolumns), mapError_eq_ok,
    ColumnRef.includes, Bool.or_eq_true, decide_eq_true_eq]
  constructor
  · rintro ⟨selected, ⟨name, hname, hselected⟩, hincluded⟩
    exact ⟨name, hname, selected, hselected, hincluded⟩
  · rintro ⟨name, hname, selected, hselected, hincluded⟩
    exact ⟨selected, ⟨name, hname, hselected⟩, hincluded⟩

/-- What is wrong with an order term. -/
def orderFaults (scope : Scope) (request : Request) (term : OrderTerm) : Findings Fault :=
  .inTurn
    [.ofReader (Fault.name .order) (scope.column term.column),
      fun place fault => ∃ column, scope.column term.column = .ok column ∧
        Findings.ofCheck (request.joins ≠ [] ∧ ¬ scope.Offers request.select column)
          (.request (.uncoveredOrder column .select)) place fault]

theorem judges_orderTerm {scope : Scope} {columns : List ColumnRef}
    (hcolumns : selectColumns scope request.select = .ok columns) (term : OrderTerm) :
    (orderFaults scope request term).Judges (scope.Orders request term)
      (orderTerm scope request.isJoined columns term) := by
  refine (Findings.judges_ofReader (Fault.name .order)).bind fun column hcolumn => ?_
  rw [mapError_eq_ok] at hcolumn
  have hcheck : (request.isJoined && !columns.any (·.includes column)) = true ↔
      request.joins ≠ [] ∧ ¬ scope.Offers request.select column := by
    rw [Bool.and_eq_true, Bool.not_eq_true', ← Bool.not_eq_true, any_includes_iff hcolumns]
    simp [Request.isJoined]
  refine ((Findings.judges_ofCheck hcheck).congr ?_ fun place fault => ?_).last
  · simp [hcolumn]
  · simp [hcolumn]

theorem faultAt_order {place : List Nat} {fault : Fault} :
    Findings.within (orderFaults (assembler.fullScope request) request) request.order place fault ↔
      (FaultAt assembler request).part 4 place fault := by
  constructor
  · rintro ⟨index, term, inner, hterm, rfl, index', stage, inner, hstage, rfl, hfault⟩
    match index', hstage with
    | 0, rfl =>
        obtain ⟨rfl, found, hcolumn, rfl⟩ := hfault
        exact .order hterm hcolumn
    | 1, rfl =>
        obtain ⟨column, hcolumn, rfl, ⟨hjoins, hunselected⟩, rfl⟩ := hfault
        exact .unselected hterm hcolumn hjoins hunselected
  · intro h
    cases h with
    | order hterm hcolumn =>
        exact ⟨_, _, _, hterm, rfl, 0, _, [], rfl, rfl, rfl, _, hcolumn, rfl⟩
    | unselected hterm hcolumn hjoins hunselected =>
        exact ⟨_, _, _, hterm, rfl, 1, _, [], rfl, rfl, _, hcolumn, rfl, ⟨hjoins, hunselected⟩,
          rfl⟩

theorem judges_order {columns : List ColumnRef}
    (hcolumns : selectColumns (assembler.fullScope request) request.select = .ok columns) :
    ((FaultAt assembler request).part 4).Judges
      (∀ term ∈ request.order, (assembler.fullScope request).Orders request term)
      (request.order.mapM (orderTerm (assembler.fullScope request) request.isJoined columns)) :=
  (Findings.judges_mapM fun term _ => judges_orderTerm hcolumns term).congr Iff.rfl
    fun _ _ => faultAt_order

/-! ### Group -/

/-- What is wrong with an order term under a group. -/
def ungroupedFaults (scope : Scope) (names : List String) (term : OrderTerm) : Findings Fault :=
  fun place fault => ∃ column, scope.column term.column = .ok column ∧
    Findings.ofCheck (¬ ∃ name ∈ names, scope.column name = .ok column)
      (.request (.uncoveredOrder column .group)) place fault

/-- What is wrong with grouping by these columns. -/
def groupFaults (scope : Scope) (terms : List OrderTerm) (names : List String) : Findings Fault :=
  .inTurn
    [.within (fun name => .ofReader (Fault.name .group) (scope.column name)) names,
      .within (ungroupedFaults scope names) terms]

theorem groupColumns_some {scope : Scope} {order : List (ColumnRef × Direction)}
    {names : List String} :
    groupColumns scope order (some names) =
      (names.mapM fun name => (scope.column name).mapError (Fault.name .group)) >>= fun group =>
        (order.find? fun term => !group.contains term.1).elim (.ok group) fun ordered =>
          .error (.request (.uncoveredOrder ordered.1 .group)) := by
  rw [groupColumns]
  congr 1
  funext group
  cases order.find? fun term => !group.contains term.1 <;> rfl

theorem judges_groupColumns {scope : Scope} {terms : List OrderTerm}
    {order : List (ColumnRef × Direction)} {names : List String}
    (horder : List.Forall₂ (fun term ordered => scope.column term.column = .ok ordered.1)
      terms order) :
    (groupFaults scope terms names).Judges (scope.Groups terms names)
      (groupColumns scope order (some names)) := by
  rw [groupColumns_some]
  refine (Findings.judges_mapM fun _ _ =>
    Findings.judges_ofReader (Fault.name .group)).bind fun group hgroup => ?_
  have hterms : List.Forall₂ (fun term ordered =>
      (ungroupedFaults scope names term).Judges
        (∀ column, scope.column term.column = .ok column →
          ∃ name ∈ names, scope.column name = .ok column)
        (if (!group.contains ordered.1) = true then
          .error (.request (.uncoveredOrder ordered.1 .group))
        else .ok ())) terms order := by
    refine horder.imp fun term ordered hcolumn => ?_
    have hcheck : (!group.contains ordered.1) = true ↔
        ¬ ∃ name ∈ names, scope.column name = .ok ordered.1 := by
      simp [mem_iff_of_mapM hgroup, mapError_eq_ok]
    refine (Findings.judges_ofCheck hcheck).congr ?_ fun place fault => ?_
    · simp [hcolumn]
    · simp [ungroupedFaults, hcolumn]
  exact (Findings.judges_find? hterms).last

theorem faultAt_group {names : List String} (hgroup : request.group = some names)
    {place : List Nat} {fault : Fault} :
    groupFaults (assembler.fullScope request) request.order names place fault ↔
      (FaultAt assembler request).part 5 place fault := by
  constructor
  · rintro ⟨index, stage, inner, hstage, rfl, hfault⟩
    match index, hstage with
    | 0, rfl =>
        obtain ⟨index, name, inner, hname, rfl, rfl, found, hcolumn, rfl⟩ := hfault
        exact .group hgroup hname hcolumn
    | 1, rfl =>
        obtain ⟨index, term, inner, hterm, rfl, column, hcolumn, rfl, hungrouped, rfl⟩ := hfault
        exact .ungrouped hgroup hterm hcolumn hungrouped
  · intro h
    cases h with
    | group hsome hname hcolumn =>
        obtain rfl := Option.some.inj (hgroup.symm.trans hsome)
        exact ⟨0, _, _, rfl, rfl, _, _, [], hname, rfl, rfl, _, hcolumn, rfl⟩
    | ungrouped hsome hterm hcolumn hungrouped =>
        obtain rfl := Option.some.inj (hgroup.symm.trans hsome)
        exact ⟨1, _, _, rfl, rfl, _, _, [], hterm, rfl, _, hcolumn, rfl, hungrouped, rfl⟩

theorem judges_group {order : List (ColumnRef × Direction)}
    (horder : List.Forall₂ (fun term ordered =>
      (assembler.fullScope request).column term.column = .ok ordered.1) request.order order) :
    ((FaultAt assembler request).part 5).Judges
      (∀ names, request.group = some names →
        (assembler.fullScope request).Groups request.order names)
      (groupColumns (assembler.fullScope request) order request.group) := by
  cases hgroup : request.group with
  | none =>
      refine ⟨by simp, ?_⟩
      intro place fault h
      cases h with
      | group hsome => simp [hgroup] at hsome
      | ungrouped hsome => simp [hgroup] at hsome
  | some names =>
      exact (judges_groupColumns horder).congr (by simp) fun _ _ => faultAt_group hgroup

/-! ### Joins -/

/-- What is wrong with a join at its position. -/
def joinFaults (assembler : Assembler) (scope : Scope) (join : JoinRequest × Nat) :
    Findings Fault :=
  .inTurn
    [.ofReader (Fault.identifier (.join join.1.aliasName)) (Identifier.path join.1.table),
      fun place fault => ∃ filter, join.1.condition = some filter ∧
        Findings.ofReader (Fault.filter (.join join.1.aliasName))
          (filter.restriction assembler.wildcards (scope.activate join.1.aliasName)
            (joinSpace join.2)) place fault]

theorem judges_joinClause (assembler : Assembler) (scope : Scope) (join : JoinRequest × Nat) :
    (joinFaults assembler scope join).Judges (assembler.Joins scope join.2 join.1)
      (assembler.joinClause scope join.2 join.1) := by
  rw [joinClause_eq_bind]
  refine (Findings.judges_ofReader _).bind fun _ _ => ?_
  rw [bind_pure_eq_map]
  refine Findings.Judges.last (Findings.Judges.map _ ?_)
  rw [joinCondition]
  split
  · next hcondition => exact ⟨by simp [hcondition], by simp [Findings.Clean, hcondition]⟩
  · next filter hcondition =>
      refine (Findings.judges_ofReader (Fault.filter (.join join.1.aliasName))).congr ?_ ?_
      · simp [hcondition, Filter.Restricts]
      · simp [hcondition]

theorem faultAt_joins {place : List Nat} {fault : Fault} :
    Findings.within (joinFaults assembler (assembler.fullScope request)) request.joins.zipIdx place
        fault ↔
      (FaultAt assembler request).part 6 place fault := by
  have hzipIdx : ∀ {index : Nat} {join : JoinRequest} {ordinal : Nat},
      request.joins.zipIdx[index]? = some (join, ordinal) ↔
        request.joins[index]? = some join ∧ index = ordinal := by
    intro index join ordinal
    simp [List.getElem?_zipIdx]
  constructor
  · rintro ⟨index, ⟨join, ordinal⟩, inner, hmember, rfl, index', stage, inner, hstage, rfl, hfault⟩
    obtain ⟨hjoin, rfl⟩ := hzipIdx.1 hmember
    match index', hstage with
    | 0, rfl =>
        obtain ⟨rfl, found, htable, rfl⟩ := hfault
        exact .joinTable hjoin htable
    | 1, rfl =>
        obtain ⟨filter, hcondition, rfl, found, hrestriction, rfl⟩ := hfault
        exact .condition hjoin hcondition hrestriction
  · intro h
    cases h with
    | joinTable hjoin htable =>
        exact ⟨_, _, _, hzipIdx.2 ⟨hjoin, rfl⟩, rfl, 0, _, [], rfl, rfl, rfl, _, htable, rfl⟩
    | condition hjoin hcondition hrestriction =>
        exact ⟨_, _, _, hzipIdx.2 ⟨hjoin, rfl⟩, rfl, 1, _, [], rfl, rfl, _, hcondition, rfl, _,
          hrestriction, rfl⟩

theorem judges_joinClauses (assembler : Assembler) (request : Request) :
    ((FaultAt assembler request).part 6).Judges
      (∀ (index : Nat) (join : JoinRequest), request.joins[index]? = some join →
        assembler.Joins (assembler.fullScope request) index join)
      (assembler.joinClauses (assembler.fullScope request) 0 request.joins) := by
  rw [joinClauses_eq_mapM]
  refine (Findings.judges_mapM fun join _ => judges_joinClause assembler _ join).congr ?_
    fun _ _ => faultAt_joins
  simp only [Prod.forall, List.mk_mem_zipIdx_iff_getElem?]
  exact forall_comm

/-! ### Requests -/

theorem stage_of_faultAt (assembler : Assembler) (request : Request) (place : List Nat)
    (fault : Fault) (h : FaultAt assembler request place fault) :
    ∃ stage < 7, ∃ inner, place = stage :: inner := by
  cases h <;> exact ⟨_, by decide, _, rfl⟩

/-- The stages are judged one after the other. Each reads the scope of all aliases, which is the one
that declaring the joins has given. -/
theorem judges_assemble (assembler : Assembler) (request : Request) :
    (FaultAt assembler request).Judges (assembler.Accepts request)
      (assembler.assemble request) := by
  rw [accepts_iff, Findings.eq_inTurn_parts (stage_of_faultAt assembler request)]
  refine (judges_mainScope assembler request).bind fun main hmain => ?_
  obtain ⟨-, -, rfl⟩ := mainScope_eq_ok hmain
  refine (judges_aliases assembler request).bind fun scope hscope => ?_
  rw [show scope = assembler.fullScope request from declareJoins_eq_foldl hscope]
  refine (judges_selectColumns assembler request).bind fun columns hcolumns => ?_
  refine (judges_filterRestriction assembler request).bind fun filter _ => ?_
  refine (judges_order hcolumns).bind fun order horder => ?_
  have hordered := forall₂_of_mapM (fun _ _ _ => column_of_orderTerm) horder
  refine (judges_group hordered).bind fun group _ => ?_
  rw [bind_pure_eq_map]
  exact ((judges_joinClauses assembler request).map _).last

/-- A request is accepted exactly when it gives every stage what the stage asks. Otherwise the fault
reported is the first one, by stage and then from left to right. -/
theorem assemble_reports_first (assembler : Assembler) (request : Request) :
    ((∃ select, assembler.assemble request = .ok select) ↔ assembler.Accepts request) ∧
      (assembler.Accepts request ↔ Findings.Clean (FaultAt assembler request)) ∧
      ∀ fault, assembler.assemble request = .error fault ↔
        Findings.First (FaultAt assembler request) fault := by
  have hjudges := judges_assemble assembler request
  exact ⟨hjudges.exists_ok_iff, hjudges.valid_iff_clean, fun fault => hjudges.eq_error_iff⟩

example :
    (Assembler.ofTable "users").assemble { Request.empty with
      select := ["*"]
      order := [⟨"id", .ascending⟩, ⟨"items.sum", .ascending⟩, ⟨"tags.id", .ascending⟩]
      group := some ["sum"]
      joins := [⟨.left, "items.", some "items", none⟩] } =
    .error (.request (.uncoveredOrder (.path "items" ["sum"]) .select)) := by
  cbv

end Assembler

end FilterSql
