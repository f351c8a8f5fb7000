import FilterSql.Proofs.Assembly
import FilterSql.Proofs.Reading
import FilterSql.Proofs.Written

/-! The names that a filter writes: its columns, and the columns that these are compared with.
Reading a filter keeps them, and lowering it asks the scope for them and for nothing else, so a
column that no name of the filter denotes does not occur in its text. -/

namespace FilterSql

/-! ### Names in written filters -/

namespace Filter

/-- The column that a check compares with, if it compares with one. -/
def checkNames (check : String × Filter) : List String :=
  match (Operator.ofToken? check.1).map Operator.category, check.2 with
  | some .columnCompare, .scalar (.text name) => [name]
  | _, _ => []

/-- The names in what stands beside a column. -/
def testNames : Filter → List String
  | .scalar _ => []
  | .list _ => []
  | .object checks => checks.flatMap checkNames

mutual

/-- The names of a filter from left to right. -/
def names : Filter → List String
  | .scalar _ => []
  | .list items => itemsNames items
  | .object entries => entriesNames entries
termination_by structural written => written

def itemsNames : List Filter → List String
  | [] => []
  | item :: items => names item ++ itemsNames items
termination_by structural items => items

def entriesNames : List (String × Filter) → List String
  | [] => []
  | (key, written) :: entries =>
    (if key.toList.head? = some '$' then names written else key :: testNames written) ++
      entriesNames entries
termination_by structural entries => entries

end

def entryNames (entry : String × Filter) : List String :=
  if entry.1.toList.head? = some '$' then names entry.2 else entry.1 :: testNames entry.2

theorem itemsNames_eq_flatMap (items : List Filter) : itemsNames items = items.flatMap names := by
  induction items with
  | nil => rfl
  | cons item items ih => rw [itemsNames, ih, List.flatMap_cons]

theorem entriesNames_eq_flatMap (entries : List (String × Filter)) :
    entriesNames entries = entries.flatMap entryNames := by
  induction entries with
  | nil => rfl
  | cons entry entries ih => rw [entriesNames, ih, List.flatMap_cons, entryNames]

end Filter

/-! ### Names in formulas -/

def Operand.names : Operand → List String
  | .scalar _ => []
  | .list _ => []
  | .range _ _ => []
  | .column name => [name]

def Test.names : Test → List String
  | .equals _ => []
  | .every checks => checks.flatMap fun check => check.operand.names

namespace Formula

mutual

def names : Formula → List String
  | .conjunction entries => entriesNames entries
  | .disjunction branches => branchesNames branches
termination_by structural formula => formula

def branchesNames : List Formula → List String
  | [] => []
  | branch :: branches => names branch ++ branchesNames branches
termination_by structural branches => branches

def entryNames : Entry → List String
  | .column name test => name :: test.names
  | .group _ members => branchesNames members
termination_by structural entry => entry

def entriesNames : List Entry → List String
  | [] => []
  | entry :: entries => entryNames entry ++ entriesNames entries
termination_by structural entries => entries

end

theorem branchesNames_eq_flatMap (branches : List Formula) :
    branchesNames branches = branches.flatMap names := by
  induction branches with
  | nil => rfl
  | cons branch branches ih => rw [branchesNames, ih, List.flatMap_cons]

theorem entriesNames_eq_flatMap (entries : List Entry) :
    entriesNames entries = entries.flatMap entryNames := by
  induction entries with
  | nil => rfl
  | cons entry entries ih => rw [entriesNames, ih, List.flatMap_cons]

end Formula

/-! ### Reading -/

variable {wildcards : Wildcards}

theorem Check.names_of_ofEntry {identifier : String} {entry : String × Filter} {check : Check}
    (h : ofEntry wildcards identifier entry = .ok check) :
    check.operand.names = Filter.checkNames entry := by
  obtain ⟨htoken, hwritten⟩ := ofEntry_eq_ok h
  obtain ⟨key, written⟩ := entry
  obtain ⟨operator, operand⟩ := check
  unfold Filter.checkNames
  rw [htoken, Option.map_some]
  cases hwritten with
  | value hcategory => rcases hcategory with hcategory | hcategory <;> rw [hcategory] <;> rfl
  | pattern hcategory => rw [hcategory]; rfl
  | range hcategory => rw [hcategory]; rfl
  | list hcategory => rw [hcategory]; rfl
  | column hcategory => rw [hcategory]; rfl

theorem Test.names_of_ofFilter {identifier : String} {written : Filter} {test : Test}
    (h : ofFilter wildcards identifier written = .ok test) :
    test.names = written.testNames := by
  unfold ofFilter at h
  split at h
  · obtain rfl := Except.ok.inj h
    rfl
  · simp at h
  · simp at h
  · obtain ⟨checks, hchecks, rfl⟩ := map_eq_ok.1 h
    rw [mapM_eq_ok] at hchecks
    exact flatMap_of_forall₂ hchecks fun _ _ _ => Check.names_of_ofEntry

namespace Formula

theorem names_of_ofNonempty {filter : Filter} {formula : Formula}
    (h : ofNonempty wildcards filter = .ok formula) : formula.names = filter.names := by
  refine read_induction ?_ ?_ filter formula h
  · intro items members _ hmembers
    rw [names, branchesNames_eq_flatMap, Filter.names, Filter.itemsNames_eq_flatMap]
    exact flatMap_of_forall₂ hmembers fun _ _ _ hnames => hnames
  · intro pairs entries _ hentries
    rw [names, entriesNames_eq_flatMap, Filter.names, Filter.entriesNames_eq_flatMap]
    apply flatMap_of_forall₂ hentries
    intro pair _ entry hentry
    rw [Filter.entryNames]
    cases hentry with
    | column hkey htest => rw [if_neg hkey, entryNames, Test.names_of_ofFilter htest]
    | group connective _ hmembers =>
        rw [if_pos connective.head?_token, entryNames, branchesNames_eq_flatMap, Filter.names,
          Filter.itemsNames_eq_flatMap]
        exact flatMap_of_forall₂ hmembers fun _ _ _ hnames => hnames

theorem names_of_ofFilter {filter : Filter} {formula : Formula}
    (h : ofFilter wildcards filter = .ok formula) : formula.names = filter.names := by
  unfold ofFilter at h
  split at h
  · next hempty =>
      obtain rfl := Except.ok.inj h
      cases filter with
      | scalar value => simp [Filter.isEmpty] at hempty
      | list items => rw [List.isEmpty_iff.1 hempty]; rfl
      | object entries => rw [List.isEmpty_iff.1 hempty]; rfl
  · exact names_of_ofNonempty h

end Formula

/-! ### Lowering -/

/-- Every column is what the scope gives for one of the names. -/
def Scope.Resolves (scope : Scope) (names : List String) (columns : List ColumnRef) : Prop :=
  ∀ column ∈ columns, ∃ name ∈ names, scope.column name = .ok column

variable {scope : Scope}

theorem Scope.resolves_of_mapM {α : Type} {lowering : α × Nat → Except FilterFault Expr}
    {memberNames : α → List String} {members : List α} {parts : List Expr}
    (hstep : ∀ member ∈ members, ∀ index part, lowering (member, index) = .ok part →
      scope.Resolves (memberNames member) part.references)
    (h : members.zipIdx.mapM lowering = .ok parts) :
    scope.Resolves (members.flatMap memberNames) (parts.flatMap Expr.references) := by
  intro column hcolumn
  obtain ⟨part, hpart, hcolumn⟩ := List.mem_flatMap.1 hcolumn
  obtain ⟨⟨member, index⟩, hmember, hlowering⟩ :=
    exists_mem_of_forall₂ (mapM_eq_ok.1 h) hpart
  have hmember := List.fst_mem_of_mem_zipIdx hmember
  obtain ⟨name, hname, hgives⟩ := hstep member hmember index part hlowering column hcolumn
  exact ⟨name, List.mem_flatMap.2 ⟨member, hmember, hname⟩, hgives⟩

theorem Predicate.resolves_of_ofCheck {identifier name : String} {column : ColumnRef}
    {check : Check} {predicate : Predicate} (hcolumn : scope.column identifier = .ok column)
    (h : ofCheck scope column name check = .ok predicate) :
    scope.Resolves (identifier :: check.operand.names) predicate.references := by
  have hhead : ∀ names, ∃ name ∈ identifier :: names, scope.column name = .ok column :=
    fun names => ⟨identifier, List.mem_cons_self, hcolumn⟩
  cases ofCheck_eq_ok.1 h with
  | compare => exact List.forall_mem_singleton.2 (hhead _)
  | member => exact List.forall_mem_singleton.2 (hhead _)
  | range => exact List.forall_mem_singleton.2 (hhead _)
  | @columns _ other _ _ hother =>
      refine List.forall_mem_cons.2 ⟨hhead _, List.forall_mem_singleton.2 ?_⟩
      exact ⟨other, List.mem_cons_of_mem _ (List.mem_singleton.2 rfl), hother⟩

theorem Expr.resolves_of_ofTest {identifier name : String} {column : ColumnRef} {test : Test}
    {part : Expr} (hcolumn : scope.column identifier = .ok column)
    (h : ofTest scope column name test = .ok part) :
    scope.Resolves (identifier :: test.names) part.references := by
  cases test with
  | equals value =>
      rw [ofTest] at h
      obtain ⟨predicate, hpredicate, rfl⟩ := map_eq_ok.1 h
      exact Predicate.resolves_of_ofCheck hcolumn hpredicate
  | every checks =>
      rw [ofTest] at h
      obtain ⟨parts, hparts, rfl⟩ := map_eq_ok.1 h
      rw [ofChecks_eq_mapM] at hparts
      rw [references_ofParts]
      have hresolves : scope.Resolves
          (checks.flatMap fun check => identifier :: check.operand.names)
          (parts.flatMap references) := by
        refine Scope.resolves_of_mapM ?_ hparts
        intro check _ index part hpart
        obtain ⟨predicate, hpredicate, rfl⟩ := map_eq_ok.1 hpart
        exact Predicate.resolves_of_ofCheck hcolumn hpredicate
      intro other hother
      obtain ⟨name, hname, hgives⟩ := hresolves other hother
      obtain ⟨check, hcheck, hname⟩ := List.mem_flatMap.1 hname
      rw [List.mem_cons] at hname
      refine ⟨name, List.mem_cons.2 (hname.imp_right fun hname => ?_), hgives⟩
      exact List.mem_flatMap.2 ⟨check, hcheck, hname⟩

namespace Formula

/-- Whatever the outermost parts are called, they refer to names of the formula only. -/
def ResolvesNames (scope : Scope) (formula : Formula) : Prop :=
  ∀ names parts, formula.parts scope names = .ok parts →
    scope.Resolves formula.names (parts.flatMap Expr.references)

theorem resolves_of_branchExprs {members : List Formula} {names : Nat → String}
    {parts : List Expr} (hmembers : ∀ member ∈ members, member.ResolvesNames scope)
    (h : branchExprs scope names 0 members = .ok parts) :
    scope.Resolves (branchesNames members) (parts.flatMap Expr.references) := by
  rw [branchExprs_eq_mapM] at h
  rw [branchesNames_eq_flatMap]
  refine Scope.resolves_of_mapM ?_ h
  intro member hmember index part hpart
  rw [toExpr_eq_map_parts] at hpart
  obtain ⟨exprs, hexprs, rfl⟩ := map_eq_ok.1 hpart
  rw [Expr.references_ofParts]
  exact hmembers member hmember _ _ hexprs

theorem resolvesNames (formula : Formula) : formula.ResolvesNames scope := by
  induction formula using Formula.induction with
  | conjunction entries ih =>
      intro partNames parts h
      rw [Formula.parts, entryExprs_eq_mapM] at h
      rw [names, entriesNames_eq_flatMap]
      refine Scope.resolves_of_mapM ?_ h
      intro entry hentry index part hpart
      cases entry with
      | column identifier test =>
          simp only [entryExpr] at hpart
          split at hpart
          · next column hcolumn => exact Expr.resolves_of_ofTest hcolumn hpart
          · simp at hpart
      | group connective members =>
          rw [entryExpr] at hpart
          obtain ⟨exprs, hexprs, rfl⟩ := map_eq_ok.1 hpart
          rw [Expr.references_ofParts]
          exact resolves_of_branchExprs (ih connective members hentry) hexprs
  | disjunction branches ih =>
      intro partNames parts h
      exact resolves_of_branchExprs ih h

end Formula

/-- Every column of a lowered filter is what the scope gives for one of the names in the filter. -/
theorem Filter.resolves_of_restriction {filter : Filter} {space : String}
    {restriction : Restriction} (h : filter.restriction wildcards scope space = .ok restriction) :
    scope.Resolves filter.names restriction.references := by
  obtain ⟨formula, hformula, h⟩ := bind_eq_ok.1 h
  rw [Formula.restriction_eq_map_parts] at h
  obtain ⟨parts, hparts, rfl⟩ := map_eq_ok.1 h
  rw [← Formula.names_of_ofFilter hformula, Restriction.references,
    Expr.partsReferences_eq_flatMap]
  exact Formula.resolvesNames formula _ _ hparts

end FilterSql
