import FilterSql.Proofs.Leaves
import FilterSql.Proofs.Operands

/-! The checks of a formula. Reading a filter gives checks whose operands fit their operators, and a
formula with such checks can always be lowered, but for names that do not denote a column. -/

namespace FilterSql

/-- The operand is one that an operator of the category compares with. -/
inductive Operand.Fits : Operator.Category → Operand → Prop
  | comparison (value : Scalar) : Fits .comparison (.scalar value)
  | pattern (value : Scalar) : Fits .pattern (.scalar value)
  | regex (value : Scalar) : Fits .regex (.scalar value)
  | membership {values : List Scalar} (hvalues : values ≠ []) : Fits .membership (.list values)
  | range (low high : Scalar) : Fits .range (.range low high)
  | columnCompare (name : String) : Fits .columnCompare (.column name)

theorem Operand.Fits.ne_nil {category : Operator.Category} {operand : Operand}
    (h : operand.Fits category) {name parameter : String} {values : List Scalar}
    (hvalues : (parameter, Argument.many values) ∈ operand.arguments name) : values ≠ [] := by
  cases h with
  | membership hne =>
      simp only [arguments, List.mem_singleton, Prod.mk.injEq, Argument.many.injEq] at hvalues
      rw [hvalues.2]
      exact hne
  | _ => simp [arguments] at hvalues

def Check.IsFit (check : Check) : Prop := check.operand.Fits check.operator.category

/-! ### Checks of a formula -/

def Test.checks (test : Test) : List Check := test.leaves.map Leaf.check

def Entry.checks (entry : Entry) : List Check := (Formula.entryLeaves entry).map Leaf.check

/-- The checks from left to right, wherever they stand. -/
def Formula.checks (formula : Formula) : List Check := formula.leaves.map Leaf.check

theorem Test.checks_equals (value : Scalar) :
    (Test.equals value).checks = [⟨.eq, .scalar value⟩] :=
  rfl

theorem Test.checks_every (checks : List Check) : (Test.every checks).checks = checks := by
  rw [Test.checks, leaves, List.map_map]
  exact List.zipIdx_map_fst 0 checks

theorem Leaf.map_check_below (position : Position) (leaves : List Leaf) :
    (leaves.map (below position)).map check = leaves.map check := by
  rw [List.map_map]
  rfl

theorem flatMap_zipIdx_fst {α β : Type} (f : α → List β) (members : List α) (index : Nat) :
    ((members.zipIdx index).flatMap fun member => f member.1) = members.flatMap f := by
  rw [← List.flatMap_map, List.zipIdx_map_fst]

namespace Formula

theorem map_check_branchesLeaves (siblings index : Nat) (branches : List Formula) :
    (branchesLeaves siblings index branches).map Leaf.check = branches.flatMap checks := by
  rw [branchesLeaves_eq_flatMap, List.map_flatMap]
  simp only [Leaf.map_check_below]
  exact flatMap_zipIdx_fst checks branches index

theorem checks_disjunction (branches : List Formula) :
    (disjunction branches).checks = branches.flatMap checks :=
  map_check_branchesLeaves _ _ branches

theorem checks_conjunction (entries : List Entry) :
    (conjunction entries).checks = entries.flatMap Entry.checks := by
  rw [checks, leaves, entriesLeaves_eq_flatMap, List.map_flatMap]
  simp only [Leaf.map_check_below]
  exact flatMap_zipIdx_fst Entry.checks entries 0

end Formula

theorem Entry.checks_column (name : String) (test : Test) :
    (Entry.column name test).checks = test.checks :=
  rfl

theorem Entry.checks_group (connective : Connective) (members : List Formula) :
    (Entry.group connective members).checks = members.flatMap Formula.checks :=
  Formula.map_check_branchesLeaves _ _ members

/-! ### Reading -/

variable {wildcards : Wildcards}

theorem Operand.fits_of_ofFilter {column : String} {operator : Operator} {written : Filter}
    {operand : Operand} (h : ofFilter wildcards column operator written = .ok operand) :
    operand.Fits operator.category := by
  have htakes := takes_of_ofFilter h
  cases written_of_ofFilter h with
  | value hcategory =>
      rcases hcategory with hcategory | hcategory
      · rw [hcategory]
        exact .comparison _
      · rw [hcategory]
        exact .regex _
  | pattern hcategory =>
      rw [hcategory]
      exact .pattern _
  | range hcategory =>
      rw [hcategory]
      exact .range _ _
  | list hcategory hitems =>
      obtain rfl := Filter.mapM_scalar?_eq_some.1 hitems
      rw [hcategory] at htakes ⊢
      exact .membership htakes.ne_nil
  | column hcategory =>
      rw [hcategory]
      exact .columnCompare _

theorem Check.isFit_of_ofEntry {column : String} {entry : String × Filter} {check : Check}
    (h : ofEntry wildcards column entry = .ok check) : check.IsFit := by
  unfold ofEntry at h
  split at h
  · simp at h
  · obtain ⟨operand, hoperand, rfl⟩ := map_eq_ok.1 h
    exact Operand.fits_of_ofFilter hoperand

section

variable {P : Check → Prop} (hbare : ∀ value, P ⟨.eq, .scalar value⟩)
  (hentry : ∀ column entry check, Check.ofEntry wildcards column entry = .ok check → P check)

include hbare hentry

theorem Test.forall_checks_of_ofFilter {column : String} {written : Filter} {test : Test}
    (h : ofFilter wildcards column written = .ok test) : ∀ check ∈ test.checks, P check := by
  unfold ofFilter at h
  split at h
  · obtain rfl := Except.ok.inj h
    rw [checks_equals, List.forall_mem_singleton]
    exact hbare _
  · simp at h
  · simp at h
  · obtain ⟨checks, hchecks, rfl⟩ := map_eq_ok.1 h
    rw [checks_every]
    intro check hcheck
    obtain ⟨entry, -, hread⟩ := exists_mem_of_forall₂ (mapM_eq_ok.1 hchecks) hcheck
    exact hentry column entry check hread

/-- A property of the checks that are read beside an operator, and of those that a bare value stands
for, is one of all checks of a formula. -/
theorem Formula.forall_checks_of_ofNonempty {filter : Filter} {formula : Formula}
    (h : ofNonempty wildcards filter = .ok formula) : ∀ check ∈ formula.checks, P check := by
  have hmembers : ∀ {items : List Filter} {members : List Formula},
      List.Forall₂ (fun _ member => ∀ check ∈ member.checks, P check) items members →
        ∀ check ∈ members.flatMap checks, P check := by
    intro items members hall check hcheck
    obtain ⟨member, hmember, hcheck⟩ := List.mem_flatMap.1 hcheck
    obtain ⟨_, -, hmember⟩ := exists_mem_of_forall₂ hall hmember
    exact hmember check hcheck
  refine read_induction ?_ ?_ filter formula h
  · intro items members _ hall
    rw [checks_disjunction]
    exact hmembers hall
  · intro pairs entries _ hentries
    rw [checks_conjunction]
    intro check hcheck
    obtain ⟨entry, hmem, hcheck⟩ := List.mem_flatMap.1 hcheck
    obtain ⟨pair, -, hread⟩ := exists_mem_of_forall₂ hentries hmem
    cases hread with
    | column _ htest =>
        rw [Entry.checks_column] at hcheck
        exact Test.forall_checks_of_ofFilter hbare hentry htest check hcheck
    | group connective _ hall =>
        rw [Entry.checks_group] at hcheck
        exact hmembers hall check hcheck

theorem Formula.forall_checks_of_ofFilter {filter : Filter} {formula : Formula}
    (h : ofFilter wildcards filter = .ok formula) : ∀ check ∈ formula.checks, P check := by
  unfold ofFilter at h
  split at h
  · obtain rfl := Except.ok.inj h
    simp [checks_conjunction]
  · exact forall_checks_of_ofNonempty hbare hentry h

end

theorem Formula.isFit_of_ofFilter {filter : Filter} {formula : Formula}
    (h : ofFilter wildcards filter = .ok formula) : ∀ check ∈ formula.checks, check.IsFit :=
  forall_checks_of_ofFilter (fun _ => .comparison _) (fun _ _ _ => Check.isFit_of_ofEntry) h

/-! ### Lowering -/

variable {scope : Scope}

/-- The fault is a name that does not denote a column. -/
def FilterFault.IsName (fault : FilterFault) : Prop := ∃ name, fault = .name name

theorem Predicate.isName_of_ofCheck {column : ColumnRef} {name : String} {check : Check}
    {fault : FilterFault} (hcheck : check.IsFit)
    (h : ofCheck scope column name check = .error fault) : fault.IsName := by
  obtain ⟨operator, operand⟩ := check
  have hfits : operand.Fits operator.category := hcheck
  generalize hcategory : operator.category = category at hfits
  cases hfits with
  | comparison => simp [ofCheck, hcategory] at h
  | pattern => simp [ofCheck, hcategory] at h
  | regex => simp [ofCheck, hcategory] at h
  | membership => simp [ofCheck, hcategory] at h
  | range => simp [ofCheck, hcategory] at h
  | columnCompare other =>
      -- the only operand that is looked up
      simp only [ofCheck, hcategory] at h
      split at h
      · simp at h
      · exact ⟨_, (Except.error.inj h).symm⟩

theorem Expr.isName_of_ofTest {column : ColumnRef} {name : String} {test : Test}
    {fault : FilterFault} (htest : ∀ check ∈ test.checks, check.IsFit)
    (h : ofTest scope column name test = .error fault) : fault.IsName := by
  cases test with
  | equals value =>
      rw [ofTest, map_eq_error] at h
      rw [Test.checks_equals, List.forall_mem_singleton] at htest
      exact Predicate.isName_of_ofCheck htest h
  | every checks =>
      rw [ofTest, map_eq_error, ofChecks_eq_mapM] at h
      rw [Test.checks_every] at htest
      obtain ⟨check, hcheck, h⟩ := exists_mem_of_mapM_eq_error h
      rw [map_eq_error] at h
      exact Predicate.isName_of_ofCheck (htest _ (List.fst_mem_of_mem_zipIdx hcheck)) h

namespace Formula

/-- If its checks are fit, the formula is lowered or fails with a name, whatever its outermost parts
are called. -/
def FailsByName (scope : Scope) (formula : Formula) : Prop :=
  (∀ check ∈ formula.checks, check.IsFit) →
    ∀ names fault, formula.parts scope names = .error fault → fault.IsName

theorem isName_of_branchExprs {members : List Formula} {names : Nat → String}
    {fault : FilterFault} (hmembers : ∀ member ∈ members, member.FailsByName scope)
    (hchecks : ∀ check ∈ members.flatMap checks, check.IsFit)
    (h : branchExprs scope names 0 members = .error fault) : fault.IsName := by
  rw [branchExprs_eq_mapM] at h
  obtain ⟨member, hmember, h⟩ := exists_mem_of_mapM_eq_error h
  have hmember := List.fst_mem_of_mem_zipIdx hmember
  rw [toExpr_eq_map_parts, map_eq_error] at h
  refine hmembers member.1 hmember ?_ _ fault h
  intro check hcheck
  exact hchecks check (List.mem_flatMap.2 ⟨member.1, hmember, hcheck⟩)

theorem failsByName (formula : Formula) : formula.FailsByName scope := by
  induction formula using Formula.induction with
  | conjunction entries ih =>
      intro hchecks names fault h
      rw [checks_conjunction] at hchecks
      rw [Formula.parts, entryExprs_eq_mapM] at h
      obtain ⟨⟨entry, index⟩, hentry, h⟩ := exists_mem_of_mapM_eq_error h
      have hentry := List.fst_mem_of_mem_zipIdx hentry
      have hfit : ∀ check ∈ entry.checks, check.IsFit := by
        intro check hcheck
        exact hchecks check (List.mem_flatMap.2 ⟨entry, hentry, hcheck⟩)
      cases entry with
      | column identifier test =>
          rw [Entry.checks_column] at hfit
          simp only [entryExpr] at h
          split at h
          · exact Expr.isName_of_ofTest hfit h
          · exact ⟨_, (Except.error.inj h).symm⟩
      | group connective members =>
          rw [entryExpr, map_eq_error] at h
          rw [Entry.checks_group] at hfit
          exact isName_of_branchExprs (ih connective members hentry) hfit h
  | disjunction branches ih =>
      intro hchecks names fault h
      rw [checks_disjunction] at hchecks
      exact isName_of_branchExprs ih hchecks h

theorem isName_of_restriction {formula : Formula} {space : String} {fault : FilterFault}
    (hchecks : ∀ check ∈ formula.checks, check.IsFit)
    (h : formula.restriction scope space = .error fault) : fault.IsName := by
  rw [restriction_eq_map_parts, map_eq_error] at h
  exact failsByName formula hchecks _ fault h

/-- The lists that fit checks bind have values. -/
theorem ne_nil_of_mem_arguments {formula : Formula} {space : String} {restriction : Restriction}
    (hchecks : ∀ check ∈ formula.checks, check.IsFit)
    (h : formula.restriction scope space = .ok restriction) {name : String} {values : List Scalar}
    (hvalues : (name, Argument.many values) ∈ restriction.arguments) : values ≠ [] := by
  rw [arguments_of_restriction h, List.mem_flatMap] at hvalues
  obtain ⟨leaf, hleaf, hvalues⟩ := hvalues
  have hfit := hchecks leaf.check (List.mem_map_of_mem hleaf)
  obtain ⟨index, positions, hpositions⟩ := exists_position_of_mem_leaves hleaf
  rw [Leaf.arguments, hpositions] at hvalues
  exact hfit.ne_nil hvalues

end Formula

end FilterSql
