import FilterSql.Proofs.Lowering
import FilterSql.Proofs.Merging
import FilterSql.Proofs.Names

/-! Every column of a statement has an owner. The aliases of a statement are different words, each
given to one table of the text, and every column that a clause names is written behind one of them.
All aliases are declared before the first condition is read, so a condition may name a table that
the text introduces only later; it does so only where its filter writes that alias. -/

namespace FilterSql

/-! ### Aliases in scope -/

namespace Scope

variable {scope scope' : Scope}

theorem knows_eq_true {aliasName : String} :
    scope.knows aliasName = true ↔ aliasName = scope.main ∨ aliasName ∈ scope.joins := by
  simp [knows]

theorem knows_ofMain {main aliasName : String} :
    (ofMain main).knows aliasName = true ↔ aliasName = main := by
  simp [knows_eq_true, ofMain]

theorem knows_extend {aliasName other : String} :
    (scope.extend aliasName).knows other = true ↔
      scope.knows other = true ∨ other = aliasName := by
  simp only [extend, knows_eq_true, mem_insertAlias]
  tauto

theorem owner_of_column {identifier : String} {column : ColumnRef}
    (h : scope.column identifier = .ok column) :
    column.owner = scope.owner ∨ scope.knows column.owner = true := by
  rcases ColumnRef.resolve_eq_ok.1 h with ⟨-, rfl⟩ | ⟨-, -, hknown⟩
  · exact .inl rfl
  · exact hknown

theorem owner_of_selected {identifier : String} {column : ColumnRef}
    (h : scope.selected identifier = .ok column) :
    column.owner = scope.owner ∨ scope.knows column.owner = true := by
  unfold selected at h
  split at h
  · obtain rfl := Except.ok.inj h
    exact .inl rfl
  · split at h
    · simp at h
    · split at h
      · next hknown =>
          obtain rfl := Except.ok.inj h
          exact .inr hknown
      · simp at h
  · exact owner_of_column h

/-- A name whose column belongs to another table than the undotted ones is the text of that
column. -/
theorem sql_of_column {identifier : String} {column : ColumnRef}
    (h : scope.column identifier = .ok column) (howner : column.owner ≠ scope.owner) :
    column.sql = identifier := by
  rcases ColumnRef.resolve_eq_ok.1 h with ⟨-, rfl⟩ | ⟨-, hsql, -⟩
  · exact absurd rfl howner
  · exact hsql.symm

theorem declare_eq_ok_true {aliasName : String}
    (h : scope.declare aliasName = .ok (true, scope')) :
    IsWord aliasName ∧ scope.knows aliasName = false ∧ scope' = scope.extend aliasName := by
  simpa using declare_eq_ok.1 h

end Scope

namespace Assembler

variable {assembler : Assembler} {request : Request} {main scope : Scope} {select : Select}

/-- Declaring joins adds their aliases, which are different words that the scope did not know. -/
theorem declareJoins_eq_ok {joins : List JoinRequest} {scope' : Scope}
    (h : declareJoins scope joins = .ok scope') :
    scope'.owner = scope.owner ∧
      (∀ aliasName, scope'.knows aliasName = true ↔
        scope.knows aliasName = true ∨ aliasName ∈ joins.map JoinRequest.aliasName) ∧
      (joins.map JoinRequest.aliasName).Nodup ∧
      ∀ aliasName ∈ joins.map JoinRequest.aliasName,
        IsWord aliasName ∧ scope.knows aliasName = false := by
  induction joins generalizing scope with
  | nil =>
      obtain rfl := Except.ok.inj h
      simp
  | cons join joins ih =>
      obtain ⟨⟨isFree, next⟩, hdeclare, h⟩ := bind_eq_ok.1 h
      cases isFree with
      | false => simp at h
      | true =>
          obtain ⟨hword, hfree, rfl⟩ := Scope.declare_eq_ok_true (mapError_eq_ok.1 hdeclare)
          obtain ⟨howner, hknows, hnodup, haliases⟩ := ih h
          refine ⟨howner, ?_, ?_, ?_⟩
          · intro aliasName
            rw [hknows, Scope.knows_extend, List.map_cons, List.mem_cons, or_assoc]
          · rw [List.map_cons, List.nodup_cons]
            refine ⟨fun hmem => ?_, hnodup⟩
            have hknown : (scope.extend join.aliasName).knows join.aliasName = true :=
              Scope.knows_extend.2 (.inr rfl)
            simp [(haliases _ hmem).2] at hknown
          · rw [List.map_cons, List.forall_mem_cons]
            refine ⟨⟨hword, hfree⟩, fun aliasName hmem => ⟨(haliases _ hmem).1, ?_⟩⟩
            have hunknown := (haliases _ hmem).2
            rw [← Bool.not_eq_true, Scope.knows_extend] at hunknown
            simpa using fun hknown => hunknown (.inl hknown)

end Assembler

/-! ### Tables in the text -/

/-- The text names a table and makes it available under the alias, which is the name of the table or
follows it. -/
def Introduces (source aliasName : String) : Prop :=
  IsWord aliasName ∧
    (source = aliasName ∨
      ∃ table, IsPath table ∧ table ≠ aliasName ∧ source = table ++ " " ++ aliasName)

theorem introduces_tableSql {table aliasName : String} (htable : IsPath table)
    (haliasName : IsWord aliasName) : Introduces (tableSql table aliasName) aliasName := by
  refine ⟨haliasName, ?_⟩
  unfold tableSql
  split
  · next heq => exact .inl heq
  · next hne => exact .inr ⟨table, htable, hne, rfl⟩

theorem Introduces.unique {source aliasName other : String} (h : Introduces source aliasName)
    (hother : Introduces source other) : aliasName = other := by
  -- an alias holds no blank, so it cannot be a table and an alias
  have hblank : ∀ {word table aliasName : String}, IsWord word →
      word ≠ table ++ " " ++ aliasName := by
    rintro word table aliasName hword rfl
    exact absurd (hword.2 ' ' (by simp)) (by decide)
  obtain ⟨hword, rfl | ⟨table, htable, -, rfl⟩⟩ := h <;>
    obtain ⟨hword', heq | ⟨table', htable', -, heq⟩⟩ := hother
  · exact heq
  · exact (hblank hword heq).elim
  · exact (hblank hword' heq.symm).elim
  · rw [← String.toList_inj] at heq
    simp only [String.toList_append, List.append_assoc] at heq
    obtain ⟨-, hrest⟩ := append_unique isPathChar htable.madeOf htable'.madeOf
      (stops_append (by decide) _) (stops_append (by decide) _) heq
    exact String.toList_inj.1 (List.append_cancel_left hrest)

/-! ### Columns in the text -/

namespace ColumnRef

/-- The text of the column is a path behind the alias. -/
def QualifiedBy (column : ColumnRef) (aliasName : String) : Prop :=
  ∃ path, IsPath path ∧ column.sql = aliasName ++ "." ++ path

/-- The column is written behind exactly one of the aliases. -/
def OwnedBy (column : ColumnRef) (aliases : List String) : Prop :=
  ∃! aliasName, aliasName ∈ aliases ∧ column.QualifiedBy aliasName

/-- The text stands for all columns of exactly one of the aliases. -/
def IsAllOf (column : ColumnRef) (aliases : List String) : Prop :=
  ∃! aliasName, aliasName ∈ aliases ∧ column.sql = aliasName ++ ".*"

/-- No alias holds a dot, so the first dot of a text tells the alias. -/
theorem alias_unique {aliasName other rest rest' : String} (haliasName : IsWord aliasName)
    (hother : IsWord other) (h : aliasName ++ "." ++ rest = other ++ "." ++ rest') :
    aliasName = other := by
  rw [← String.toList_inj] at h
  simp only [String.toList_append, List.append_assoc] at h
  exact (haliasName.append_unique hother (stops_append (by decide) _) (stops_append (by decide) _)
    h).1

variable {column : ColumnRef} {aliases : List String}

theorem IsSingle.qualifiedBy_owner (h : column.IsSingle) : column.QualifiedBy column.owner := by
  obtain ⟨owner, segments, rfl⟩ := h.exists_path
  obtain ⟨-, hne, hwords⟩ := isSingle_path.1 h
  exact ⟨_, ⟨segments, Identifier.path_intercalate hne hwords⟩, rfl⟩

theorem IsSingle.eq_owner_of_qualifiedBy (h : column.IsSingle) {aliasName : String}
    (haliasName : IsWord aliasName) (hqualified : column.QualifiedBy aliasName) :
    aliasName = column.owner := by
  obtain ⟨owner, segments, rfl⟩ := h.exists_path
  obtain ⟨path, -, hsql⟩ := hqualified
  exact alias_unique haliasName (isSingle_path.1 h).1 hsql.symm

theorem IsSingle.ownedBy (h : column.IsSingle) (hwords : ∀ aliasName ∈ aliases, IsWord aliasName)
    (howner : column.owner ∈ aliases) : column.OwnedBy aliases := by
  refine ⟨column.owner, ⟨howner, h.qualifiedBy_owner⟩, ?_⟩
  rintro other ⟨hother, hqualified⟩
  exact h.eq_owner_of_qualifiedBy (hwords other hother) hqualified

theorem isAllOf_all {owner : String} (hwords : ∀ aliasName ∈ aliases, IsWord aliasName)
    (howner : owner ∈ aliases) : (all owner).IsAllOf aliases := by
  have hsql : ∀ aliasName : String, aliasName ++ ".*" = aliasName ++ "." ++ "*" := by
    intro aliasName
    rw [String.append_assoc]
    rfl
  refine ⟨owner, ⟨howner, (hsql owner).symm⟩, ?_⟩
  rintro other ⟨hother, hall⟩
  rw [hsql] at hall
  exact alias_unique (hwords other hother) (hwords owner howner) hall.symm

theorem IsNamed.ownedBy_or_isAllOf (h : column.IsNamed)
    (hwords : ∀ aliasName ∈ aliases, IsWord aliasName) (howner : column.owner ∈ aliases) :
    column.OwnedBy aliases ∨ column.IsAllOf aliases := by
  cases column with
  | path owner segments => exact .inl (IsSingle.ownedBy ⟨rfl, h⟩ hwords howner)
  | all owner => exact .inr (isAllOf_all hwords howner)

end ColumnRef

/-! ### Statements -/

def Join.source (join : Join) : String := tableSql join.table join.aliasName

namespace Select

/-- The aliases of the tables, the main one first. -/
def aliases (select : Select) : List String :=
  select.aliasName :: select.joins.map Join.aliasName

def source (select : Select) : String := tableSql select.table select.aliasName

/-- The tables as they are written, the main one first. -/
def sources (select : Select) : List String := select.source :: select.joins.map Join.source

/-- Each alias is a word of its own and stands for one table of the text, and every column that the
text names is written behind an alias. -/
structure HasOwners (select : Select) : Prop where
  words : ∀ aliasName ∈ select.aliases, IsWord aliasName
  distinct : select.aliases.Nodup
  written : select.sql =
    "SELECT " ++ columnsSql select.columns ++ " FROM " ++ select.source ++
      String.join (select.joins.map fun join =>
        " " ++ join.kind.sql ++ " " ++ join.source ++ " ON " ++ join.conditionSql) ++
      select.whereSql ++ select.groupSql ++ select.orderSql ++
      select.dialect.windowSql select.window (!select.order.isEmpty)
  introduced : ∀ aliasName ∈ select.aliases,
    ∃! index : Nat, ∃ source, select.sources[index]? = some source ∧ Introduces source aliasName
  columns : ∀ column ∈ select.columns,
    column.OwnedBy select.aliases ∨ column.IsAllOf select.aliases
  conditions : ∀ condition ∈ select.conditions, condition.isEmpty = false →
    ∃ sentence, (∀ other, Reads .disjunction condition.sql other ↔ other = sentence) ∧
      ∀ column ∈ sentence.references, column.OwnedBy select.aliases
  group : ∀ column ∈ select.group, column.OwnedBy select.aliases
  order : ∀ term ∈ select.order, term.1.OwnedBy select.aliases

end Select

namespace Assembler

variable {assembler : Assembler} {request : Request} {main scope : Scope} {select : Select}

theorem joinClause_of_joinClauses {requests : List JoinRequest} {joins : List Join} {index : Nat}
    {join : Join} (h : assembler.joinClauses scope 0 requests = .ok joins)
    (hjoin : joins[index]? = some join) :
    ∃ declared, requests[index]? = some declared ∧
      assembler.joinClause scope index declared = .ok join := by
  rw [joinClauses_eq_mapM, mapM_eq_ok, List.forall₂_iff_get] at h
  obtain ⟨hlength, hclauses⟩ := h
  obtain ⟨hindex, rfl⟩ := List.getElem?_eq_some_iff.1 hjoin
  have hindex' : index < requests.length := by
    rw [List.length_zipIdx] at hlength
    omega
  have hclause := hclauses index (by rwa [hlength]) hindex
  simp only [List.get_eq_getElem, List.getElem_zipIdx, Nat.zero_add] at hclause
  exact ⟨requests[index], List.getElem?_eq_getElem hindex', hclause⟩

theorem aliasNames_of_joinClauses {requests : List JoinRequest} {joins : List Join}
    (h : assembler.joinClauses scope 0 requests = .ok joins) :
    joins.map Join.aliasName = requests.map JoinRequest.aliasName := by
  rw [joinClauses_eq_mapM, mapM_eq_ok] at h
  have hnames : List.Forall₂ (· = ·) (joins.map Join.aliasName)
      (requests.zipIdx.map fun request => request.1.aliasName) := by
    rw [List.forall₂_map_left_iff, List.forall₂_map_right_iff]
    refine h.flip.imp ?_
    intro join request hclause
    obtain ⟨-, condition, -, rfl⟩ := joinClause_eq_ok.1 hclause
    rfl
  rw [List.forall₂_eq_eq_eq] at hnames
  have hrequests := congrArg (List.map JoinRequest.aliasName) (List.zipIdx_map_fst 0 requests)
  rw [List.map_map] at hrequests
  exact hnames.trans hrequests

/-- Every column of a condition is what the scope gives for a name in its filter. -/
def ResolvesFilter (scope : Scope) (filter : Option Filter) (condition : Restriction) : Prop :=
  ∀ column ∈ condition.references,
    ∃ written ∈ filter, ∃ name ∈ written.names, scope.column name = .ok column

theorem resolves_of_filterRestriction {filter : Option Filter} {condition : Restriction}
    (h : assembler.filterRestriction scope filter = .ok condition) :
    ResolvesFilter scope filter condition := by
  cases filter with
  | none =>
      obtain rfl := Except.ok.inj h
      simp [ResolvesFilter, Restriction.references, Restriction.none, Expr.partsReferences]
  | some filter =>
      intro column hcolumn
      exact ⟨filter, rfl, Filter.resolves_of_restriction (mapError_eq_ok.1 h) column hcolumn⟩

theorem resolves_of_joinCondition {ordinal : Nat} {declared : JoinRequest}
    {condition : Restriction} (h : assembler.joinCondition scope ordinal declared = .ok condition) :
    ResolvesFilter (scope.activate declared.aliasName) declared.condition condition := by
  unfold joinCondition at h
  split at h
  · obtain rfl := Except.ok.inj h
    simp [ResolvesFilter, Restriction.references, Restriction.none, Expr.partsReferences]
  · next filter hfilter =>
      intro column hcolumn
      exact ⟨filter, hfilter, Filter.resolves_of_restriction (mapError_eq_ok.1 h) column hcolumn⟩

/-! ### Owners -/

theorem Stages.aliases (h : assembler.Stages request main scope select) :
    select.aliases = assembler.aliasName :: request.joins.map JoinRequest.aliasName := by
  rw [Select.aliases, h.aliasName, aliasNames_of_joinClauses h.joins]

theorem Stages.owner (h : assembler.Stages request main scope select) :
    scope.owner = select.aliasName := by
  obtain ⟨-, -, rfl⟩ := mainScope_eq_ok h.opened
  rw [(declareJoins_eq_ok h.declared).1, h.aliasName]
  rfl

theorem Stages.knows (h : assembler.Stages request main scope select) {aliasName : String} :
    scope.knows aliasName = true ↔ aliasName ∈ select.aliases := by
  obtain ⟨-, -, rfl⟩ := mainScope_eq_ok h.opened
  rw [(declareJoins_eq_ok h.declared).2.1, Scope.knows_ofMain, h.aliases, List.mem_cons]

theorem Stages.aliases_nodup (h : assembler.Stages request main scope select) :
    select.aliases.Nodup := by
  obtain ⟨-, -, rfl⟩ := mainScope_eq_ok h.opened
  obtain ⟨-, -, hnodup, haliases⟩ := declareJoins_eq_ok h.declared
  rw [h.aliases, List.nodup_cons]
  refine ⟨fun hmem => ?_, hnodup⟩
  have hfree := (haliases _ hmem).2
  rw [← Bool.not_eq_true, Scope.knows_ofMain] at hfree
  exact hfree rfl

theorem Stages.isWord_of_mem_aliases (h : assembler.Stages request main scope select) :
    ∀ aliasName ∈ select.aliases, IsWord aliasName := by
  obtain ⟨-, -, hnodup, haliases⟩ := declareJoins_eq_ok h.declared
  rw [h.aliases, List.forall_mem_cons]
  exact ⟨(mainScope_eq_ok h.opened).2.1, fun aliasName hmem => (haliases aliasName hmem).1⟩

/-- What the scope gives stands under an alias of the statement, also while a join is active. -/
theorem Stages.owner_mem_aliases (h : assembler.Stages request main scope select)
    {column : ColumnRef} {owner : String} (howner : owner ∈ select.aliases)
    (hcolumn : column.owner = owner ∨ scope.knows column.owner = true) :
    column.owner ∈ select.aliases := by
  rcases hcolumn with hcolumn | hcolumn
  · rwa [hcolumn]
  · exact h.knows.1 hcolumn

theorem Stages.ownedBy_of_gives (h : assembler.Stages request main scope select)
    {column : ColumnRef} (hcolumn : scope.Gives column) : column.OwnedBy select.aliases := by
  obtain ⟨name, hname⟩ := hcolumn
  have hmain : scope.owner ∈ select.aliases := by
    rw [h.owner]
    exact List.mem_cons_self
  exact (Scope.isSingle_of_column h.isChecked.named.owner hname).ownedBy h.isWord_of_mem_aliases
    (h.owner_mem_aliases hmain (Scope.owner_of_column hname))

/-- The condition of a join has one reading. Its columns stand under aliases of the statement, under
that of another table only if the filter writes the alias. -/
theorem Stages.join_reading (h : assembler.Stages request main scope select) {index : Nat}
    {join : Join} (hjoin : select.joins[index]? = some join) :
    ∃ declared, request.joins[index]? = some declared ∧
      (join.condition.isEmpty = false →
        ∃ sentence, (∀ other, Reads .disjunction join.condition.sql other ↔ other = sentence) ∧
          ∀ column ∈ sentence.references, column.IsSingle ∧ column.owner ∈ select.aliases ∧
            (column.owner ≠ join.aliasName →
              ∃ filter ∈ declared.condition, column.sql ∈ filter.names)) := by
  obtain ⟨declared, hdeclared, hclause⟩ := joinClause_of_joinClauses h.joins hjoin
  have hchecked := h.isChecked.joins (join, index) (List.mk_mem_zipIdx_iff_getElem?.2 hjoin)
  have haliasName : join.aliasName ∈ select.aliases :=
    List.mem_cons_of_mem _ (List.mem_map_of_mem (List.mem_of_getElem? hjoin))
  have hword : IsWord (scope.activate join.aliasName).owner :=
    h.isWord_of_mem_aliases _ haliasName
  obtain ⟨-, condition, hcondition, rfl⟩ := joinClause_eq_ok.1 hclause
  refine ⟨declared, hdeclared, fun hempty => ?_⟩
  obtain ⟨sentence, hsentence, hreferences⟩ := hchecked.condition.reading hword
    (madeOf_joinSpace index) hempty (isFull_of_joinCondition hcondition).1
  refine ⟨sentence, hsentence, fun column hcolumn => ?_⟩
  obtain ⟨filter, hfilter, name, hname, hgives⟩ :=
    resolves_of_joinCondition hcondition column (hreferences ▸ hcolumn)
  refine ⟨Scope.isSingle_of_column hword hgives,
    h.owner_mem_aliases haliasName (Scope.owner_of_column hgives), fun howner => ?_⟩
  refine ⟨filter, hfilter, ?_⟩
  rwa [Scope.sql_of_column hgives howner]

end Assembler

/-- If the members of one list are told apart by those of another, each of the latter has one
place. -/
theorem existsUnique_index {α β : Type} {R : α → β → Prop} {inputs : List α} {outputs : List β}
    (h : List.Forall₂ R inputs outputs)
    (hunique : ∀ {input output other}, R input output → R input other → output = other)
    (hnodup : outputs.Nodup) {output : β} (houtput : output ∈ outputs) :
    ∃! index : Nat, ∃ input, inputs[index]? = some input ∧ R input output := by
  rw [List.forall₂_iff_get] at h
  obtain ⟨hlength, hR⟩ := h
  simp only [List.get_eq_getElem] at hR
  obtain ⟨index, hindex, rfl⟩ := List.getElem_of_mem houtput
  have hindex' : index < inputs.length := hlength ▸ hindex
  refine ⟨index, ⟨inputs[index], List.getElem?_eq_getElem hindex', hR index hindex' hindex⟩, ?_⟩
  rintro other ⟨input, hinput, hother⟩
  obtain ⟨hbound, rfl⟩ := List.getElem?_eq_some_iff.1 hinput
  have heq := hunique hother (hR other hbound (hlength ▸ hbound))
  exact (hnodup.getElem_inj_iff.1 heq).symm

namespace Select

variable {scope : Scope} {select : Select}

theorem IsChecked.introduces (h : select.IsChecked scope) :
    List.Forall₂ Introduces select.sources select.aliases := by
  refine .cons (introduces_tableSql h.table h.aliasName) ?_
  rw [List.forall₂_map_left_iff, List.forall₂_map_right_iff, List.forall₂_same]
  intro join hjoin
  obtain ⟨ordinal, hchecked⟩ := h.exists_join hjoin
  exact introduces_tableSql hchecked.table hchecked.aliasName

end Select

namespace Assembler

variable {assembler : Assembler} {request : Request} {main scope : Scope} {select : Select}

theorem Stages.condition_ownedBy (h : assembler.Stages request main scope select)
    {condition : Restriction} (hcondition : condition ∈ select.conditions)
    (hempty : condition.isEmpty = false) :
    ∃ sentence, (∀ other, Reads .disjunction condition.sql other ↔ other = sentence) ∧
      ∀ column ∈ sentence.references, column.OwnedBy select.aliases := by
  rw [Select.conditions, List.mem_cons] at hcondition
  rcases hcondition with rfl | hcondition
  · obtain ⟨sentence, hsentence, hreferences⟩ := h.isChecked.filter.reading
      h.isChecked.named.owner (by decide) hempty h.isFull_filter.1
    refine ⟨sentence, hsentence, fun column hcolumn => ?_⟩
    obtain ⟨filter, -, name, -, hname⟩ :=
      resolves_of_filterRestriction h.filter column (hreferences ▸ hcolumn)
    exact h.ownedBy_of_gives ⟨name, hname⟩
  · obtain ⟨join, hjoin, rfl⟩ := List.mem_map.1 hcondition
    obtain ⟨index, hindex⟩ := List.getElem?_of_mem hjoin
    obtain ⟨declared, -, hreading⟩ := h.join_reading hindex
    obtain ⟨sentence, hsentence, hcolumns⟩ := hreading hempty
    refine ⟨sentence, hsentence, fun column hcolumn => ?_⟩
    obtain ⟨hsingle, howner, -⟩ := hcolumns column hcolumn
    exact hsingle.ownedBy h.isWord_of_mem_aliases howner

/-- Every column of a statement has a declared owner: the aliases of the request are different
words, each is given to exactly one table of the text, and whatever a clause refers to is written
behind one of them. -/
theorem hasOwners_of_assemble (h : assembler.assemble request = .ok select) :
    select.aliases = assembler.aliasName :: request.joins.map JoinRequest.aliasName ∧
      select.HasOwners := by
  obtain ⟨main, scope, hstages⟩ := assemble_eq_ok.1 h
  have hchecked := hstages.isChecked
  have hmain : scope.owner ∈ select.aliases := by
    rw [hstages.owner]
    exact List.mem_cons_self
  refine ⟨hstages.aliases, ?_⟩
  exact {
    words := hstages.isWord_of_mem_aliases
    distinct := hstages.aliases_nodup
    written := by
      simp only [Select.sql, Select.windowedSql, Select.bodySql, ← String.append_assoc]
      rfl
    introduced := fun aliasName hmem =>
      existsUnique_index hchecked.introduces Introduces.unique hstages.aliases_nodup hmem
    columns := by
      intro column hcolumn
      obtain ⟨name, -, hname⟩ := exists_selected hstages.columns column hcolumn
      exact (hchecked.columns column hcolumn).ownedBy_or_isAllOf hstages.isWord_of_mem_aliases
        (hstages.owner_mem_aliases hmain (Scope.owner_of_selected hname))
    conditions := fun condition => hstages.condition_ownedBy
    group := fun column hcolumn =>
      hstages.ownedBy_of_gives (gives_of_groupColumns hstages.group column hcolumn)
    order := by
      intro term hterm
      obtain ⟨name, -, hname⟩ := exists_mem_of_forall₂ (mapM_eq_ok.1 hstages.order) hterm
      exact hstages.ownedBy_of_gives (gives_of_orderTerm hname)
  }

/-- A main table that goes by the last part of its name, a join under its own name and one under
another, and references at all depths. -/
theorem hasOwners_of_assemble_nested :
    let request : Request := { Request.empty with
      select := ["*", "name", "i.sum"]
      filter := some (.object [("$or", .list [
        .object [("age", .object [("$gtCol", .scalar (.text "orders.age"))])],
        .object [("$and", .list [.object [("i.sum", .scalar (.int 3))]])]])])
      order := [⟨"name", .ascending⟩]
      group := some ["name", "i.sum"]
      joins := [
        ⟨.left, "orders", none,
          some (.object [("buyer", .object [("$col", .scalar (.text "users.id"))])])⟩,
        ⟨.inner, "shop.items", some "i", none⟩] }
    ∃ select, (ofTable "shop.users").assemble request = .ok select ∧
      select.aliases = ["users", "orders", "i"] ∧
      select.sources = ["shop.users users", "orders", "shop.items i"] ∧
      select.filter.sql = "(users.age > orders.age OR i.sum = :0_1)" ∧ select.HasOwners := by
  intro request
  obtain ⟨select, hselect, hsources, hfilter⟩ : ∃ select,
      (ofTable "shop.users").assemble request = .ok select ∧
        select.sources = ["shop.users users", "orders", "shop.items i"] ∧
        select.filter.sql = "(users.age > orders.age OR i.sum = :0_1)" :=
    ⟨_, by cbv, by cbv, by cbv⟩
  obtain ⟨haliases, howners⟩ := hasOwners_of_assemble hselect
  exact ⟨select, hselect, haliases.trans (by cbv), hsources, hfilter, howners⟩

/-! ### Tables that come later -/

/-- The columns in the condition of a join stand under the main alias, under that of a join in front
of it, or under its own. A table that the text introduces only later is named where the filter
itself writes the column with that alias, and nowhere else. -/
theorem join_columns_of_assemble (h : assembler.assemble request = .ok select) {index : Nat}
    {join : Join} (hjoin : select.joins[index]? = some join) :
    ∃ declared, request.joins[index]? = some declared ∧
      (join.conditionSql = "1 = 1" ∨
        ∃ sentence, (∀ other, Reads .disjunction join.conditionSql other ↔ other = sentence) ∧
          ∀ column ∈ sentence.references,
            column.OwnedBy (select.aliases.take (index + 2)) ∨
              column.OwnedBy (select.aliases.drop (index + 2)) ∧
                ∃ filter ∈ declared.condition, column.sql ∈ filter.names) := by
  obtain ⟨main, scope, hstages⟩ := assemble_eq_ok.1 h
  obtain ⟨declared, hdeclared, hreading⟩ := hstages.join_reading hjoin
  refine ⟨declared, hdeclared, ?_⟩
  rw [Join.conditionSql]
  cases hempty : join.condition.isEmpty with
  | true => exact .inl rfl
  | false =>
      have halias : select.aliases[index + 1]? = some join.aliasName := by
        rw [Select.aliases, List.getElem?_cons_succ, List.getElem?_map, hjoin, Option.map_some]
      have hown : join.aliasName ∈ select.aliases.take (index + 2) := by
        apply List.mem_of_getElem?
        rw [List.getElem?_take_of_lt (Nat.lt_succ_self _), halias]
      obtain ⟨sentence, hsentence, hcolumns⟩ := hreading hempty
      refine .inr ⟨sentence, hsentence, fun column hcolumn => ?_⟩
      obtain ⟨hsingle, howner, hwritten⟩ := hcolumns column hcolumn
      rw [← List.take_append_drop (index + 2) select.aliases, List.mem_append] at howner
      by_cases hearlier : column.owner ∈ select.aliases.take (index + 2)
      · refine .inl (hsingle.ownedBy (fun aliasName hmem => ?_) hearlier)
        exact hstages.isWord_of_mem_aliases _ (List.mem_of_mem_take hmem)
      · refine .inr ⟨hsingle.ownedBy (fun aliasName hmem => ?_)
          (howner.resolve_left hearlier), hwritten fun heq => hearlier (heq ▸ hown)⟩
        exact hstages.isWord_of_mem_aliases _ (List.mem_of_mem_drop hmem)

theorem join_columns_of_assemble_later :
    let assembler : Assembler := ⟨"users", some "u", .anywhere, .postgres⟩
    let request : Request := { Request.empty with
      select := ["id"]
      joins := [
        ⟨.left, "orders", none,
          some (.list [
            .object [("id", .object [("$col", .scalar (.text "items.order_id"))])],
            .object [("u.id", .object [("$ltCol", .scalar (.text "buyer"))])]])⟩,
        ⟨.left, "items", none, none⟩] }
    ∃ select join declared,
      assembler.assemble request = .ok select ∧ select.joins[0]? = some join ∧
        join.conditionSql = "orders.id = items.order_id OR u.id < orders.buyer" ∧
        request.joins[0]? = some declared ∧
        ∃ sentence, Reads .disjunction join.conditionSql sentence ∧
          ∀ column ∈ sentence.references,
            column.OwnedBy ["u", "orders"] ∨
              column.OwnedBy ["items"] ∧
                ∃ filter ∈ declared.condition, column.sql ∈ filter.names := by
  intro assembler request
  obtain ⟨select, hselect, haliases, join, hjoin, hsql⟩ :
      ∃ select, assembler.assemble request = .ok select ∧
        select.aliases = ["u", "orders", "items"] ∧
        ∃ join, select.joins[0]? = some join ∧
          join.conditionSql = "orders.id = items.order_id OR u.id < orders.buyer" :=
    ⟨_, by cbv, by cbv, _, by cbv, by cbv⟩
  obtain ⟨declared, hdeclared, hone | ⟨sentence, hsentence, howned⟩⟩ :=
    join_columns_of_assemble hselect hjoin
  · exact absurd (hsql.symm.trans hone) (by decide)
  · rw [haliases] at howned
    exact ⟨select, join, declared, hselect, hjoin, hsql, hdeclared, sentence,
      (hsentence sentence).2 rfl, howned⟩

end Assembler

/-- The condition of every join names only the main table, the joins in front of it and its own
table. -/
def Select.NamesEarlier (select : Select) : Prop :=
  ∀ index join, select.joins[index]? = some join →
    ∀ sentence, Reads .disjunction join.conditionSql sentence →
      ∀ column ∈ sentence.references, column.OwnedBy (select.aliases.take (index + 2))

/-- Not every statement is of that kind. -/
theorem Assembler.not_namesEarlier_of_later_alias :
    let request : Request := { Request.empty with
      select := ["id"]
      joins := [
        ⟨.left, "orders", none,
          some (.object [("id", .object [("$col", .scalar (.text "items.order_id"))])])⟩,
        ⟨.left, "items", none, none⟩] }
    ∃ select, (ofTable "users").assemble request = .ok select ∧
      select.sql = "SELECT users.id FROM users LEFT JOIN orders ON orders.id = items.order_id " ++
        "LEFT JOIN items ON 1 = 1" ∧ ¬ select.NamesEarlier := by
  intro request
  obtain ⟨select, hselect, hsql, haliases, join, hjoin, hcondition⟩ :
      ∃ select, (ofTable "users").assemble request = .ok select ∧
        select.sql = "SELECT users.id FROM users LEFT JOIN orders ON orders.id = " ++
          "items.order_id LEFT JOIN items ON 1 = 1" ∧
        select.aliases = ["users", "orders", "items"] ∧
        ∃ join, select.joins[0]? = some join ∧
          join.conditionSql = "orders.id = items.order_id" :=
    ⟨_, by cbv, by cbv, by cbv, _, by cbv, by cbv⟩
  refine ⟨select, hselect, hsql, fun hearlier => ?_⟩
  let later : ColumnRef := .path "items" ["order_id"]
  have hlater : later.IsSingle := ColumnRef.isSingle_path.2 ⟨by decide, by decide, by decide⟩
  have hreads : Reads .disjunction join.conditionSql
      (.comparison (.path "orders" ["id"]) "=" (.column later)) := by
    have hcolumn : (ColumnRef.path "orders" ["id"]).IsSingle :=
      ColumnRef.isSingle_path.2 ⟨by decide, by decide, by decide⟩
    have hterm : (Term.column later).Follows "=" := ⟨by decide, hlater⟩
    have htext : "orders.id = items.order_id" = (ColumnRef.path "orders" ["id"]).sql ++ " " ++
        "=" ++ " " ++ (Term.column later).sql := by decide
    rw [hcondition, htext]
    exact .conjunction (.atom (.comparison hcolumn hterm))
  obtain ⟨aliasName, ⟨haliasName, hqualified⟩, -⟩ :=
    hearlier 0 join hjoin _ hreads later (by decide)
  rw [haliases] at haliasName
  have hword : ∀ other ∈ ["users", "orders"], IsWord other := by decide
  rw [hlater.eq_owner_of_qualifiedBy (hword _ haliasName) hqualified] at haliasName
  exact absurd haliasName (by decide)

end FilterSql
