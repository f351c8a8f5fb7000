import FilterSql.Proofs.Ownership

/-! Writing the owner in front of undotted names. A request in which every name carries its alias
asks for the same statement: names that are not dotted belong to the main table, in the condition of
a join to the joined one, and saying so changes nothing. The two requests also fail together, in the
same clause or by the same check. -/

namespace FilterSql

/-! ### Renamed filters -/

namespace Filter

/-- Renames the column that a check compares with. -/
def renameCheck (change : String → String) (check : String × Filter) : String × Filter :=
  match (Operator.ofToken? check.1).map Operator.category, check.2 with
  | some .columnCompare, .scalar (.text name) => (check.1, .scalar (.text (change name)))
  | _, _ => check

/-- Renames the columns in what stands beside a column. -/
def renameTest (change : String → String) : Filter → Filter
  | .scalar value => .scalar value
  | .list items => .list items
  | .object checks => .object (checks.map (renameCheck change))

mutual

/-- Renames the columns of a filter. Keys with a dollar sign name no column. -/
def rename (change : String → String) : Filter → Filter
  | .scalar value => .scalar value
  | .list items => .list (renameItems change items)
  | .object entries => .object (renameEntries change entries)
termination_by structural written => written

def renameItems (change : String → String) : List Filter → List Filter
  | [] => []
  | item :: items => rename change item :: renameItems change items
termination_by structural items => items

def renameEntries (change : String → String) : List (String × Filter) → List (String × Filter)
  | [] => []
  | (key, written) :: entries =>
    (if key.toList.head? = some '$' then (key, rename change written)
      else (change key, renameTest change written)) ::
      renameEntries change entries
termination_by structural entries => entries

end

def renameEntry (change : String → String) (entry : String × Filter) : String × Filter :=
  if entry.1.toList.head? = some '$' then (entry.1, rename change entry.2)
  else (change entry.1, renameTest change entry.2)

theorem renameItems_eq_map (change : String → String) (items : List Filter) :
    renameItems change items = items.map (rename change) := by
  induction items with
  | nil => rfl
  | cons item items ih => rw [renameItems, ih, List.map_cons]

theorem renameEntries_eq_map (change : String → String) (entries : List (String × Filter)) :
    renameEntries change entries = entries.map (renameEntry change) := by
  induction entries with
  | nil => rfl
  | cons entry entries ih => rw [renameEntries, ih, List.map_cons, renameEntry]

theorem isEmpty_rename (change : String → String) (filter : Filter) :
    (filter.rename change).isEmpty = filter.isEmpty := by
  cases filter with
  | scalar value => rfl
  | list items => simp [rename, renameItems_eq_map, isEmpty]
  | object entries => simp [rename, renameEntries_eq_map, isEmpty]

end Filter

def Operand.rename (change : String → String) : Operand → Operand
  | .scalar value => .scalar value
  | .list values => .list values
  | .range low high => .range low high
  | .column name => .column (change name)

def Check.rename (change : String → String) (check : Check) : Check :=
  ⟨check.operator, check.operand.rename change⟩

def Test.rename (change : String → String) : Test → Test
  | .equals value => .equals value
  | .every checks => .every (checks.map (Check.rename change))

namespace Formula

mutual

def rename (change : String → String) : Formula → Formula
  | .conjunction entries => .conjunction (renameEntries change entries)
  | .disjunction branches => .disjunction (renameBranches change branches)
termination_by structural formula => formula

def renameBranches (change : String → String) : List Formula → List Formula
  | [] => []
  | branch :: branches => rename change branch :: renameBranches change branches
termination_by structural branches => branches

def renameEntry (change : String → String) : Entry → Entry
  | .column name test => .column (change name) (test.rename change)
  | .group connective members => .group connective (renameBranches change members)
termination_by structural entry => entry

def renameEntries (change : String → String) : List Entry → List Entry
  | [] => []
  | entry :: entries => renameEntry change entry :: renameEntries change entries
termination_by structural entries => entries

end

theorem renameBranches_eq_map (change : String → String) (branches : List Formula) :
    renameBranches change branches = branches.map (rename change) := by
  induction branches with
  | nil => rfl
  | cons branch branches ih => rw [renameBranches, ih, List.map_cons]

theorem renameEntries_eq_map (change : String → String) (entries : List Entry) :
    renameEntries change entries = entries.map (renameEntry change) := by
  induction entries with
  | nil => rfl
  | cons entry entries ih => rw [renameEntries, ih, List.map_cons]

end Formula

/-! ### Reading -/

/-- All faults are alike. -/
def anyFault {ε : Type} (_ : ε) : Unit := ()

theorem EndsLike.error_any {ε α α' : Type} {change : α → α'} (fault fault' : ε) :
    EndsLike change anyFault (.error fault) (.error fault') :=
  .error rfl

variable {wildcards : Wildcards} {change : String → String}

theorem Filter.renameCheck_of_ne {key : String} {operator : Operator} {written : Filter}
    (htoken : Operator.ofToken? key = some operator)
    (hcategory : operator.category ≠ .columnCompare) :
    renameCheck change (key, written) = (key, written) := by
  unfold renameCheck
  split
  · next heq _ =>
      rw [htoken, Option.map_some, Option.some.injEq] at heq
      exact absurd heq hcategory
  · rfl

theorem Operand.ofFilter_rename {column column' key : String} {operator : Operator}
    (htoken : Operator.ofToken? key = some operator) (written : Filter) :
    EndsLike (rename change) anyFault (ofFilter wildcards column operator written)
      (ofFilter wildcards column' operator (Filter.renameCheck change (key, written)).2) := by
  by_cases hcategory : operator.category = .columnCompare
  · simp only [Filter.renameCheck, htoken, Option.map_some, ofFilter, hcategory]
    cases written with
    | scalar value =>
        cases value
        case text name => exact .ok (Operand.column name)
        all_goals exact .error_any _ _
    | list items => exact .error_any _ _
    | object entries => exact .error_any _ _
  · rw [Filter.renameCheck_of_ne htoken hcategory]
    dsimp only
    unfold ofFilter
    split
    · split
      · exact .ok (Operand.scalar _)
      · exact .error_any _ _
    · split
      · exact .ok (Operand.scalar _)
      · exact .error_any _ _
    · split
      · exact .ok (Operand.scalar _)
      · exact .error_any _ _
    · split
      · split
        · exact .ok (Operand.range _ _)
        · exact .error_any _ _
        · exact .error_any _ _
      · exact .error_any _ _
    · split
      · split
        · exact .ok (Operand.list _)
        · exact .error_any _ _
      · exact .error_any _ _
    · next hcompare => exact absurd hcompare hcategory
    · exact .error_any _ _

theorem Check.ofEntry_rename (column column' : String) (entry : String × Filter) :
    EndsLike (rename change) anyFault (ofEntry wildcards column entry)
      (ofEntry wildcards column' (Filter.renameCheck change entry)) := by
  obtain ⟨key, written⟩ := entry
  have hkey : (Filter.renameCheck change (key, written)).1 = key := by
    unfold Filter.renameCheck
    split <;> rfl
  unfold ofEntry
  rw [hkey]
  cases htoken : Operator.ofToken? key with
  | none => exact .error_any _ _
  | some operator => exact (Operand.ofFilter_rename htoken written).map fun _ => rfl

theorem Test.ofFilter_rename (column column' : String) (written : Filter) :
    EndsLike (rename change) anyFault (ofFilter wildcards column written)
      (ofFilter wildcards column' (written.renameTest change)) := by
  cases written with
  | scalar value => exact .ok (Test.equals value)
  | list items => exact .error_any _ _
  | object checks =>
      cases checks with
      | nil => exact .error_any _ _
      | cons check checks =>
          have hchecks : EndsLike (List.map (Check.rename change)) anyFault
              ((check :: checks).mapM (Check.ofEntry wildcards column))
              (((check :: checks).map (Filter.renameCheck change)).mapM
                (Check.ofEntry wildcards column')) :=
            EndsLike.mapM fun entry _ => Check.ofEntry_rename column column' entry
          exact hchecks.map fun _ => rfl

namespace Formula

/-- Reading the renamed filter gives the renamed formula. -/
def ReadsRenamed (wildcards : Wildcards) (change : String → String) (filter : Filter) : Prop :=
  EndsLike (rename change) anyFault (ofNonempty wildcards filter)
    (ofNonempty wildcards (filter.rename change))

theorem ofItems_rename {items : List Filter}
    (hitems : ∀ item ∈ items, ReadsRenamed wildcards change item) :
    EndsLike (renameBranches change) anyFault (ofItems wildcards items)
      (ofItems wildcards (Filter.renameItems change items)) := by
  rw [ofItems_eq_mapM, ofItems_eq_mapM, Filter.renameItems_eq_map,
    funext (renameBranches_eq_map change)]
  exact EndsLike.mapM hitems

theorem ofMembers_rename {connective : Connective} {written : Filter}
    (hitems : ∀ items, written = .list items →
      ∀ item ∈ items, ReadsRenamed wildcards change item) :
    EndsLike (renameBranches change) anyFault (ofMembers wildcards connective written)
      (ofMembers wildcards connective (written.rename change)) := by
  cases written with
  | scalar value => exact .error_any _ _
  | object entries => exact .error_any _ _
  | list items =>
      cases items with
      | nil => exact .error_any _ _
      | cons item items => exact ofItems_rename (hitems _ rfl)

theorem ofPair_rename
    (hchange : ∀ key : String, key.toList.head? ≠ some '$' → (change key).toList.head? ≠ some '$')
    {pair : String × Filter}
    (hitems : ∀ items, pair.2 = .list items →
      ∀ item ∈ items, ReadsRenamed wildcards change item) :
    EndsLike (renameEntry change) anyFault (Entry.ofPair wildcards pair)
      (Entry.ofPair wildcards (Filter.renameEntry change pair)) := by
  obtain ⟨key, written⟩ := pair
  unfold Filter.renameEntry Entry.ofPair
  dsimp only
  split
  · next hhead =>
      refine (EndsLike.refl (EntryKey.ofText key)).bind fun entryKey hkey => ?_
      cases entryKey with
      | column name =>
          rcases EntryKey.ofText_eq_ok hkey with ⟨-, heq⟩ | ⟨-, heq⟩ | ⟨hne, -⟩
          · simp at heq
          · simp at heq
          · exact absurd hhead hne
      | group connective => exact (ofMembers_rename hitems).map fun _ => rfl
  · next hhead =>
      rw [EntryKey.ofText_of_ne hhead, EntryKey.ofText_of_ne (hchange key hhead)]
      exact (Test.ofFilter_rename key (change key) written).map fun _ => rfl

theorem readsRenamed
    (hchange : ∀ key : String, key.toList.head? ≠ some '$' → (change key).toList.head? ≠ some '$')
    (filter : Filter) : ReadsRenamed wildcards change filter := by
  induction filter using Filter.induction with
  | scalar value => exact .error_any _ _
  | list items ih =>
      cases items with
      | nil => exact .error_any _ _
      | cons item items => exact (ofItems_rename ih).map fun _ => rfl
  | object pairs ih =>
      cases pairs with
      | nil => exact .error_any _ _
      | cons pair pairs =>
          have hentries : EndsLike (renameEntries change) anyFault
              (ofEntries wildcards (pair :: pairs))
              (ofEntries wildcards (Filter.renameEntries change (pair :: pairs))) := by
            rw [ofEntries_eq_mapM, ofEntries_eq_mapM, Filter.renameEntries_eq_map,
              funext (renameEntries_eq_map change)]
            refine EndsLike.mapM fun pair hpair => ofPair_rename hchange fun items hwritten => ?_
            exact ih pair.1 items (hwritten ▸ hpair)
          exact hentries.map fun _ => rfl

theorem ofFilter_rename
    (hchange : ∀ key : String, key.toList.head? ≠ some '$' → (change key).toList.head? ≠ some '$')
    (filter : Filter) :
    EndsLike (rename change) anyFault (ofFilter wildcards filter)
      (ofFilter wildcards (filter.rename change)) := by
  unfold ofFilter
  rw [filter.isEmpty_rename]
  split
  · exact .ok (Formula.conjunction [])
  · exact readsRenamed hchange filter

end Formula

/-! ### Lowering -/

variable {scope : Scope}

theorem EndsLike.mapM_zipIdx {ε κ α α' β : Type} {kind : ε → κ} {changeInput : α → α'}
    {f : α × Nat → Except ε β} {f' : α' × Nat → Except ε β} {inputs : List α}
    (h : ∀ input ∈ inputs, ∀ index,
      EndsLike id kind (f (input, index)) (f' (changeInput input, index))) :
    EndsLike id kind (inputs.zipIdx.mapM f) ((inputs.map changeInput).zipIdx.mapM f') := by
  have hmembers : ∀ input ∈ inputs.zipIdx,
      EndsLike id kind (f input) (f' (Prod.map changeInput id input)) := by
    rintro ⟨input, index⟩ hinput
    exact h input (List.fst_mem_of_mem_zipIdx hinput) index
  rw [List.zipIdx_map, ← List.map_id_fun]
  exact EndsLike.mapM hmembers

theorem Predicate.ofCheck_rename
    (hchange : ∀ name, EndsLike id anyFault (scope.column name) (scope.column (change name)))
    (column : ColumnRef) (name : String) (check : Check) :
    EndsLike id anyFault (ofCheck scope column name check)
      (ofCheck scope column name (check.rename change)) := by
  obtain ⟨operator, operand⟩ := check
  cases operand with
  | scalar value => exact .refl _
  | list values => exact .refl _
  | range low high => exact .refl _
  | column identifier =>
      unfold ofCheck Check.rename Operand.rename
      dsimp only
      cases operator.category
      case columnCompare =>
        dsimp only
        have hother := hchange identifier
        generalize scope.column identifier = result at hother ⊢
        generalize scope.column (change identifier) = result' at hother ⊢
        cases hother with
        | ok other => exact .ok (columns column operator other)
        | error _ => exact .error_any _ _
      all_goals exact .error_any _ _

theorem Expr.ofTest_rename
    (hchange : ∀ name, EndsLike id anyFault (scope.column name) (scope.column (change name)))
    (column : ColumnRef) (name : String) (test : Test) :
    EndsLike id anyFault (ofTest scope column name test)
      (ofTest scope column name (test.rename change)) := by
  cases test with
  | equals value => exact .refl _
  | every checks =>
      rw [Test.rename, ofTest, ofTest, List.length_map, ofChecks_eq_mapM, ofChecks_eq_mapM]
      refine EndsLike.map (EndsLike.mapM_zipIdx fun check _ index => ?_) fun _ => rfl
      exact (Predicate.ofCheck_rename hchange column _ check).map fun _ => rfl

namespace Formula

/-- The renamed formula has the same outermost parts. -/
def LowersRenamed (scope : Scope) (change : String → String) (formula : Formula) : Prop :=
  ∀ names, EndsLike id anyFault (formula.parts scope names)
    ((formula.rename change).parts scope names)

theorem connective_rename (formula : Formula) :
    (formula.rename change).connective = formula.connective := by
  cases formula <;> rfl

theorem length_rename (formula : Formula) : (formula.rename change).length = formula.length := by
  cases formula with
  | conjunction entries => simp [rename, renameEntries_eq_map, length]
  | disjunction branches => simp [rename, renameBranches_eq_map, length]

theorem LowersRenamed.toExpr {formula : Formula} (hformula : formula.LowersRenamed scope change)
    (name : String) :
    EndsLike id anyFault (formula.toExpr scope name)
      ((formula.rename change).toExpr scope name) := by
  rw [toExpr_eq_map_parts, toExpr_eq_map_parts, length_rename, connective_rename]
  exact (hformula _).map fun _ => rfl

theorem branchExprs_rename {members : List Formula} {names : Nat → String}
    (hmembers : ∀ member ∈ members, member.LowersRenamed scope change) :
    EndsLike id anyFault (branchExprs scope names 0 members)
      (branchExprs scope names 0 (renameBranches change members)) := by
  rw [branchExprs_eq_mapM, branchExprs_eq_mapM, renameBranches_eq_map]
  exact EndsLike.mapM_zipIdx fun member hmember index => (hmembers member hmember).toExpr _

theorem entryExpr_rename
    (hchange : ∀ name, EndsLike id anyFault (scope.column name) (scope.column (change name)))
    {name : String} {entry : Entry}
    (hmembers : ∀ connective members, entry = .group connective members →
      ∀ member ∈ members, member.LowersRenamed scope change) :
    EndsLike id anyFault (entryExpr scope name entry)
      (entryExpr scope name (renameEntry change entry)) := by
  cases entry with
  | column identifier test =>
      have hcolumn : EndsLike id anyFault ((scope.column identifier).mapError FilterFault.name)
          ((scope.column (change identifier)).mapError FilterFault.name) :=
        (hchange identifier).mapError fun _ _ _ => rfl
      rw [renameEntry, entryExpr_column, entryExpr_column]
      exact hcolumn.bind fun column _ => Expr.ofTest_rename hchange column name test
  | group connective members =>
      have hlength : (renameBranches change members).length = members.length := by
        rw [renameBranches_eq_map, List.length_map]
      rw [renameEntry, entryExpr, entryExpr, hlength]
      exact (branchExprs_rename (hmembers connective members rfl)).map fun _ => rfl

theorem lowersRenamed
    (hchange : ∀ name, EndsLike id anyFault (scope.column name) (scope.column (change name)))
    (formula : Formula) : formula.LowersRenamed scope change := by
  induction formula using Formula.induction with
  | conjunction entries ih =>
      intro names
      rw [rename, Formula.parts, Formula.parts, entryExprs_eq_mapM, entryExprs_eq_mapM,
        renameEntries_eq_map]
      refine EndsLike.mapM_zipIdx fun entry hentry index => entryExpr_rename hchange ?_
      intro connective members hgroup
      exact ih connective members (hgroup ▸ hentry)
  | disjunction branches ih =>
      intro names
      exact branchExprs_rename ih

end Formula

/-- Renaming is not seen when the scope gives the same columns for the new names, provided that no
column is renamed to an operator. -/
theorem Filter.restriction_rename
    (hkey : ∀ key : String, key.toList.head? ≠ some '$' → (change key).toList.head? ≠ some '$')
    (hchange : ∀ name, EndsLike id anyFault (scope.column name) (scope.column (change name)))
    (wildcards : Wildcards) (space : String) (filter : Filter) :
    EndsLike id anyFault (filter.restriction wildcards scope space)
      ((filter.rename change).restriction wildcards scope space) := by
  refine (Formula.ofFilter_rename hkey filter).bind fun formula _ => ?_
  rw [Formula.restriction_eq_map_parts, Formula.restriction_eq_map_parts,
    Formula.connective_rename]
  exact (Formula.lowersRenamed hchange formula _).map fun _ => rfl

/-! ### Qualified names -/

/-- The name with its owner, unless it is dotted already. -/
def qualify (owner name : String) : String :=
  if '.' ∈ name.toList then name else owner ++ "." ++ name

theorem head?_qualify {owner : String} (howner : IsWord owner) {key : String}
    (hkey : key.toList.head? ≠ some '$') : (qualify owner key).toList.head? ≠ some '$' := by
  unfold qualify
  split
  · exact hkey
  · obtain ⟨c, cs, hcs⟩ := List.exists_cons_of_ne_nil howner.toList_ne_nil
    have hc : isWordChar c = true := howner.2 c (by simp [hcs])
    simp only [String.toList_append, hcs, List.cons_append, List.head?_cons]
    rintro heq
    rw [Option.some.inj heq] at hc
    exact absurd hc (by decide)

/-- Behind its owner, a name without a dot denotes the column that it denotes alone. -/
theorem ColumnRef.sql_eq_qualify {owner name : String} (howner : IsWord owner)
    (hdot : '.' ∉ name.toList) {column : ColumnRef} (h : column.IsSingle) :
    column.sql = owner ++ "." ++ name ↔ column = path owner [name] := by
  constructor
  · intro hsql
    obtain ⟨aliasName, segments, rfl⟩ := h.exists_path
    obtain ⟨haliasName, hne, -⟩ := isSingle_path.1 h
    rw [sql, ColumnRef.owner, ColumnRef.segments] at hsql
    obtain rfl := alias_unique haliasName howner hsql
    have hname : ".".intercalate segments = name := by
      rw [← String.toList_inj] at hsql ⊢
      simp only [String.toList_append] at hsql
      exact List.append_cancel_left hsql
    rcases segments with _ | ⟨segment, _ | ⟨next, segments⟩⟩
    · exact absurd rfl hne
    · rw [String.intercalate_singleton] at hname
      rw [hname]
    · rw [String.intercalate_cons_cons] at hname
      exact absurd (by simp [← hname]) hdot
  · rintro rfl
    rw [sql, ColumnRef.owner, ColumnRef.segments, String.intercalate_singleton]

namespace Scope

theorem column_qualify (howner : IsWord scope.owner) (name : String) :
    EndsLike id anyFault (scope.column name) (scope.column (qualify scope.owner name)) := by
  unfold qualify
  split
  · exact .refl _
  · next hdot =>
      apply EndsLike.of_eq_ok_iff
      intro column
      rw [Scope.column, Scope.column, ColumnRef.resolve_eq_ok, ColumnRef.resolve_eq_ok]
      constructor
      · rintro (⟨hword, -⟩ | ⟨hsingle, hsql, -⟩)
        · exact absurd (by simp) hword.dot_not_mem
        · obtain rfl := (ColumnRef.sql_eq_qualify howner hdot hsingle).1 hsql.symm
          exact .inl ⟨(ColumnRef.isSingle_path.1 hsingle).2.2 name (by simp), rfl⟩
      · rintro (⟨hword, rfl⟩ | ⟨-, rfl, -⟩)
        · have hsingle : (ColumnRef.path scope.owner [name]).IsSingle :=
            ColumnRef.isSingle_path.2 ⟨howner, by simp, by simpa using hword⟩
          exact .inr ⟨hsingle, ((ColumnRef.sql_eq_qualify howner hdot hsingle).2 rfl).symm,
            .inl rfl⟩
        · exact absurd column.dot_mem_sql hdot

theorem selected_all {aliasName : String} (haliasName : IsWord aliasName)
    (hknown : scope.knows aliasName = true) :
    scope.selected (aliasName ++ ".*") = .ok (.all aliasName) := by
  have hreverse : (aliasName ++ ".*").toList.reverse =
      '*' :: '.' :: aliasName.toList.reverse := by simp
  have hword : Identifier.word (String.ofList aliasName.toList.reverse.reverse) = .ok aliasName := by
    rw [List.reverse_reverse, String.ofList_toList, Identifier.word_of_isWord haliasName]
  unfold selected
  rw [hreverse]
  simp only [hword, hknown, if_true]

/-- A star is qualified like every other name. -/
theorem selected_qualify (howner : IsWord scope.owner) (hknown : scope.knows scope.owner = true)
    (name : String) :
    EndsLike id anyFault (scope.selected name) (scope.selected (qualify scope.owner name)) := by
  by_cases hdot : '.' ∈ name.toList
  · rw [qualify, if_pos hdot]
    exact .refl _
  · have hcolumn := column_qualify howner name
    rw [qualify, if_neg hdot] at hcolumn ⊢
    by_cases hstar : name = "*"
    · subst hstar
      have hqualified : scope.owner ++ "." ++ "*" = scope.owner ++ ".*" := by
        rw [String.append_assoc]
        rfl
      rw [hqualified, selected_all howner hknown]
      exact .ok (ColumnRef.all scope.owner)
    · have hdot' : '.' ∉ name.toList.reverse := by simpa using hdot
      have hstar' : name.toList.reverse ≠ ['*'] := by
        intro hreverse
        rw [List.reverse_eq_iff] at hreverse
        exact hstar (String.toList_inj.1 hreverse)
      have hplain : scope.selected name = scope.column name :=
        selected_eq_column hstar' fun rest hreverse => hdot' (by simp [hreverse])
      have hreverse : (scope.owner ++ "." ++ name).toList.reverse =
          name.toList.reverse ++ '.' :: scope.owner.toList.reverse := by
        simp
      have hfar : scope.selected (scope.owner ++ "." ++ name) =
          scope.column (scope.owner ++ "." ++ name) := by
        apply selected_eq_column
        · rw [hreverse]
          exact fun heq => absurd (heq ▸ by simp : '.' ∈ ['*']) (by decide)
        · -- the only dot is the one behind the owner, so a star before it would be the whole name
          rw [hreverse]
          generalize name.toList.reverse = reversed at hdot' hstar' ⊢
          rcases reversed with _ | ⟨c, _ | ⟨d, cs⟩⟩
          · simp
          · simpa using hstar'
          · intro rest heq
            have hd : d = '.' := (List.cons.inj (List.cons.inj heq).2).1
            exact hdot' (by simp [hd])
      rwa [hplain, hfar]

end Scope

/-! ### Requests -/

/-- Undotted names in the condition of a join belong to the joined table. -/
def JoinRequest.qualified (join : JoinRequest) : JoinRequest :=
  { join with condition := join.condition.map (Filter.rename (qualify join.aliasName)) }

/-- The request in which every name carries the alias of its table. -/
def Request.qualified (main : String) (request : Request) : Request :=
  { request with
    select := request.select.map (qualify main)
    filter := request.filter.map (Filter.rename (qualify main))
    order := request.order.map fun term => { term with column := qualify main term.column }
    group := request.group.map (List.map (qualify main))
    joins := request.joins.map JoinRequest.qualified }

/-- Where a request fails: in the names or the filter of a clause, or by a check of its own. -/
def Fault.place : Fault → Clause ⊕ RequestFault
  | .filter clause _ => .inl clause
  | .request fault => .inr fault

theorem EndsLike.inClause {α : Type} {clause : Clause} {result result' : Except FilterFault α}
    (h : EndsLike id anyFault result result') :
    EndsLike id Fault.place (result.mapError (Fault.filter clause))
      (result'.mapError (Fault.filter clause)) :=
  h.mapError fun _ _ _ => rfl

theorem EndsLike.ofName {α : Type} {clause : Clause} {result result' : Except NameFault α}
    (h : EndsLike id anyFault result result') :
    EndsLike id Fault.place (result.mapError (Fault.name clause))
      (result'.mapError (Fault.name clause)) :=
  h.mapError fun _ _ _ => rfl

namespace Assembler

variable {assembler : Assembler}

theorem declareJoins_qualified (joins : List JoinRequest) :
    declareJoins scope (joins.map JoinRequest.qualified) = declareJoins scope joins := by
  induction joins generalizing scope with
  | nil => rfl
  | cons join joins ih =>
      rw [List.map_cons, declareJoins, declareJoins]
      simp only [ih]
      rfl

theorem selectColumns_qualify (howner : IsWord scope.owner)
    (hknown : scope.knows scope.owner = true) (names : List String) :
    EndsLike id Fault.place (selectColumns scope names)
      (selectColumns scope (names.map (qualify scope.owner))) := by
  unfold selectColumns
  rw [List.isEmpty_map]
  split
  · exact .error rfl
  · rw [← List.map_id_fun]
    exact EndsLike.mapM fun name _ => (Scope.selected_qualify howner hknown name).ofName

theorem filterRestriction_qualify (howner : IsWord scope.owner) (filter : Option Filter) :
    EndsLike id Fault.place (assembler.filterRestriction scope filter)
      (assembler.filterRestriction scope (filter.map (Filter.rename (qualify scope.owner)))) := by
  cases filter with
  | none => exact .refl _
  | some filter =>
      exact (Filter.restriction_rename (fun _ => head?_qualify howner)
        (Scope.column_qualify howner) assembler.wildcards "" filter).inClause

theorem orderTerms_qualify (howner : IsWord scope.owner) (mustBeSelected : Bool)
    (columns : List ColumnRef) (terms : List OrderTerm) :
    EndsLike id Fault.place (terms.mapM (orderTerm scope mustBeSelected columns))
      ((terms.map fun term => { term with column := qualify scope.owner term.column }).mapM
        (orderTerm scope mustBeSelected columns)) := by
  rw [← List.map_id_fun]
  refine EndsLike.mapM fun term _ => ?_
  exact (Scope.column_qualify howner term.column).ofName.bind fun _ _ => .refl _

theorem groupColumns_qualify (howner : IsWord scope.owner) (order : List (ColumnRef × Direction))
    (group : Option (List String)) :
    EndsLike id Fault.place (groupColumns scope order group)
      (groupColumns scope order (group.map (List.map (qualify scope.owner)))) := by
  cases group with
  | none => exact .refl _
  | some names =>
      have hnames : EndsLike id Fault.place
          (names.mapM fun name => (scope.column name).mapError (Fault.name .group))
          ((names.map (qualify scope.owner)).mapM fun name =>
            (scope.column name).mapError (Fault.name .group)) := by
        rw [← List.map_id_fun]
        exact EndsLike.mapM fun name _ => (Scope.column_qualify howner name).ofName
      exact hnames.bind fun _ _ => .refl _

theorem joinClause_qualified {ordinal : Nat} {join : JoinRequest} (hword : IsWord join.aliasName) :
    EndsLike id Fault.place (assembler.joinClause scope ordinal join)
      (assembler.joinClause scope ordinal join.qualified) := by
  obtain ⟨kind, table, givenAlias, condition⟩ := join
  refine (EndsLike.refl _).bind fun _ _ => ?_
  cases condition with
  | none => exact .refl _
  | some filter =>
      have howner : IsWord
          (scope.activate (JoinRequest.aliasName ⟨kind, table, givenAlias, some filter⟩)).owner :=
        hword
      have hfilter := Filter.restriction_rename (fun _ => head?_qualify howner)
        (Scope.column_qualify howner) assembler.wildcards (joinSpace ordinal) filter
      exact hfilter.inClause.bind fun _ _ => .refl _

theorem joinClauses_qualified {joins : List JoinRequest}
    (hwords : ∀ join ∈ joins, IsWord join.aliasName) :
    EndsLike id Fault.place (assembler.joinClauses scope 0 joins)
      (assembler.joinClauses scope 0 (joins.map JoinRequest.qualified)) := by
  rw [joinClauses_eq_mapM, joinClauses_eq_mapM]
  exact EndsLike.mapM_zipIdx fun join hjoin _ => joinClause_qualified (hwords join hjoin)

/-- Writing the alias of its table in front of every undotted name changes nothing: the request asks
for the same statement, and if there is none, it fails in the same clause or by the same check. -/
theorem assemble_qualified (assembler : Assembler) (request : Request) :
    (∀ select, assembler.assemble (request.qualified assembler.aliasName) = .ok select ↔
      assembler.assemble request = .ok select) ∧
    (assembler.assemble (request.qualified assembler.aliasName)).mapError Fault.place =
      (assembler.assemble request).mapError Fault.place := by
  suffices h : EndsLike id Fault.place (assembler.assemble request)
      (assembler.assemble (request.qualified assembler.aliasName)) from
    ⟨fun _ => h.eq_ok_iff, h.mapError_eq⟩
  refine (EndsLike.refl _).bind fun main hmain => ?_
  obtain ⟨-, hword, rfl⟩ := mainScope_eq_ok hmain
  have hdeclared : EndsLike id Fault.place
      (declareJoins (Scope.ofMain assembler.aliasName) request.joins)
      (declareJoins (Scope.ofMain assembler.aliasName)
        (request.joins.map JoinRequest.qualified)) := by
    rw [declareJoins_qualified]
    exact .refl _
  refine hdeclared.bind fun scope hscope => ?_
  obtain ⟨howner, hknows, -, haliases⟩ := declareJoins_eq_ok hscope
  have howner : scope.owner = assembler.aliasName := howner
  have hwords : ∀ join ∈ request.joins, IsWord join.aliasName :=
    fun join hjoin => (haliases _ (List.mem_map_of_mem hjoin)).1
  have hjoined : (request.qualified assembler.aliasName).isJoined = request.isJoined := by
    simp [Request.isJoined, Request.qualified]
  have hknown : scope.knows scope.owner = true :=
    (hknows _).2 (.inl (Scope.knows_ofMain.2 howner))
  rw [hjoined]
  rw [← howner] at hword
  simp only [Request.qualified, id, ← howner]
  refine (selectColumns_qualify hword hknown request.select).bind fun columns _ => ?_
  refine (filterRestriction_qualify hword request.filter).bind fun filter _ => ?_
  refine (orderTerms_qualify hword _ columns request.order).bind fun order _ => ?_
  refine (groupColumns_qualify hword order request.group).bind fun group _ => ?_
  refine (joinClauses_qualified hwords).bind fun joins _ => ?_
  exact .refl _

/-- Dotted names are kept. The others get the alias of their table, beside an operator as well. -/
example :
    let request : Request := { Request.empty with
      select := ["*", "i.sum"]
      filter := some (.object [("$or", .list [
        .object [("age", .object [("$gtCol", .scalar (.text "limit"))])]])])
      joins := [⟨.inner, "items", some "i",
        some (.object [("buyer", .object [("$col", .scalar (.text "u.id"))])])⟩] }
    request.qualified "u" = { request with
      select := ["u.*", "i.sum"]
      filter := some (.object [("$or", .list [
        .object [("u.age", .object [("$gtCol", .scalar (.text "u.limit"))])]])])
      joins := [⟨.inner, "items", some "i",
        some (.object [("i.buyer", .object [("$col", .scalar (.text "u.id"))])])⟩] } := by
  cbv

end Assembler

end FilterSql
